import CodesSim.Torus.Slots
import Mathlib.Tactic.LinearCombination
import Mathlib.Tactic.Positivity

/-!
# Credits of the torus network

The nodes of a torus and the events in flight form a network of LPs (`system`), into which packets
are injected at any time.  In every reachable state a buffer counts the slots that are held and the
credits on their way, and a loop flag counts the `SEND` events in flight (`Conserved`).  A chunk
that was generated is in one place or has been delivered; `historyMachine` keeps the account.
-/

namespace CodesSim.Torus

open Function

/-- The nodes and the events in flight. -/
abbrev TorusNet := Net (fun _ : ℕ => Node) Event

/-- A packet comes from outside, or an event in flight is delivered. -/
abbrev TorusLabel := NetLabel ℕ Event Env

/-- The nodes of a torus. -/
def system (p : Param) : LpSystem (fun _ : ℕ => Node) Event Env where
  handle env n s e := (handle p env n s e).map fun r => (r.1, sent r.2)

/-- The network before the first event. -/
def initNet : TorusNet := ⟨fun _ => Node.init, []⟩

/-- Only packets come from outside, and none for the node it comes from. -/
def Admissible (p : Param) : TorusLabel → Prop
  | .inject d (.generate msg) _ => d < numNodes p.dimLength ∧ msg.destLp < numNodes p.dimLength ∧
      msg.destLp ≠ d
  | .inject _ _ _ => False
  | .deliver _ _ => True

/-- The slots of the channel `ch` that are held, wherever the chunks are. -/
def held (p : Param) (ch : ℕ × ℕ) (net : TorusNet) : ℕ :=
  LpSystem.nodeSum (Finset.range (numNodes p.dimLength))
      (fun n s => ∑ q ∈ Finset.range (2 * p.dimLength.length), (s.lane q).held ch n q) net +
    LpSystem.flightSum (heldIn ch) net.inFlight

/-- The slots of the channel `ch` that are on their way back. -/
def credits (ch : ℕ × ℕ) (net : TorusNet) : ℕ :=
  LpSystem.flightSum (creditIn ch) net.inFlight

/-- The next node on the ring of a queue. -/
def ringNext (p : Param) (q n : ℕ) : ℕ := neighbour p.dimLength n (q / 2) (q % 2)

/-- The loop flags count the `SEND` events in flight. -/
structure Flagged (net : TorusNet) : Prop where
  count : ∀ n q, (net.nodes n).inSendLoop q = LpSystem.flightSum (sendIn (n, q)) net.inFlight
  le_one : ∀ n q, (net.nodes n).inSendLoop q ≤ 1

/-- Buffers, flags and events agree. -/
structure Conserved (p : Param) (net : TorusNet) : Prop extends Flagged net where
  lanes : ∀ n q, LaneOk p n q ((net.nodes n).lane q)
  events : ∀ x ∈ net.inFlight, EventOk p x.1 x.2
  slots : ∀ n q, n < numNodes p.dimLength →
    (net.nodes n).buffer q = p.chunkSize * (held p (n, q) net + credits (n, q) net)

variable {p : Param} {net net' : TorusNet} {l : TorusLabel} {env : Env} {d : ℕ} {e : Event}
    {s' : Node}
  {outs rest : List (ℕ × Event)}

/-! ### One step -/

/-- Only packets come from outside. -/
def OnlyPackets : TorusLabel → Prop
  | .inject _ (.generate _) _ => True
  | .inject _ _ _ => False
  | .deliver _ _ => True

theorem Admissible.onlyPackets (h : Admissible p l) : OnlyPackets l := by
  cases l with
  | deliver => trivial
  | inject d e env =>
    cases e with
    | generate => trivial
    | arrival | send | credit => exact h.elim

/-- In the step `l` node `d` handles the event `e`, from outside or in flight with `rest`. -/
structure Handles (p : Param) (net net' : TorusNet) (l : TorusLabel) (env : Env) (d : ℕ)
    (e : Event) (s' : Node) (outs rest : List (ℕ × Event)) : Prop where
  handled : (system p).Handled net net' env d e s' outs rest
  event : net.event l = some (d, e)
  rest_mem : ∀ x ∈ rest, x ∈ net.inFlight
  flight : ∀ ψ : ℕ → Event → ℕ, LpSystem.flightSum ψ net.inFlight + LpSystem.weight ψ l =
    ψ d e + LpSystem.flightSum ψ rest
  weight : ∀ ψ : ℕ → Event → ℕ, (∀ n msg, ψ n (.generate msg) = 0) → LpSystem.weight ψ l = 0
  loop : ∀ dim dir, e = .send dim dir → (net.nodes d).inSendLoop (queueOf dim dir) = 1

/-- A step on an event as it should be. -/
structure Takes (p : Param) (net net' : TorusNet) (l : TorusLabel) (env : Env) (d : ℕ)
    (e : Event) (s' : Node) (outs rest : List (ℕ × Event)) : Prop
    extends Handles p net net' l env d e s' outs rest where
  eventOk : EventOk p d e

theorem step_handled (hinv : Flagged net) (hl : OnlyPackets l)
    (h : (system p).machine.step net l = some net') :
    ∃ env d e s' outs rest, Handles p net net' l env d e s' outs rest := by
  obtain ⟨env, d, e, s', outs, rest, hh, hevent, hcases⟩ := LpSystem.step_handles h
  refine ⟨env, d, e, s', outs, rest, ?_⟩
  have hflight := fun ψ : ℕ → Event → ℕ => LpSystem.flightSum_step ψ hcases
  obtain ⟨rfl, rfl⟩ | ⟨⟨i, rfl⟩, hperm⟩ := hcases
  · cases e with
    | generate msg =>
      exact ⟨hh, hevent, fun x hx => hx, hflight, fun ψ hψ => hψ d msg,
        fun dim dir he => by cases he⟩
    | arrival | send | credit => exact hl.elim
  · refine ⟨hh, hevent, fun x hx => hperm.mem_iff.2 (List.mem_cons_of_mem _ hx), hflight,
      fun ψ _ => rfl, ?_⟩
    -- the flag counts the events in flight, so it is not zero
    rintro dim dir rfl
    have h1 := hinv.count d (queueOf dim dir)
    have h2 := hinv.le_one d (queueOf dim dir)
    have h3 : sendIn (d, queueOf dim dir) d (.send dim dir) = 1 := if_pos rfl
    have h4 := hflight (sendIn (d, queueOf dim dir))
    rw [h3] at h4
    simp only [LpSystem.weight] at h4
    omega

theorem step_takes (hinv : Conserved p net) (hl : Admissible p l)
    (h : (system p).machine.step net l = some net') :
    ∃ env d e s' outs rest, Takes p net net' l env d e s' outs rest := by
  obtain ⟨env, d, e, s', outs, rest, hh⟩ := step_handled hinv.toFlagged hl.onlyPackets h
  refine ⟨env, d, e, s', outs, rest, hh, ?_⟩
  cases l with
  | deliver i ω => exact hinv.events _ (List.mem_of_getElem? hh.event)
  | inject d' e' ω =>
    obtain ⟨rfl, rfl⟩ := Prod.mk.inj (Option.some.inj hh.event)
    cases e' with
    | generate => exact hl
    | arrival | send | credit => exact hl.elim

section

variable (h : Handles p net net' l env d e s' outs rest)
include h

theorem Handles.inFlight (ψ : ℕ → Event → ℕ) (hψ : ∀ n msg, ψ n (.generate msg) = 0) :
    LpSystem.flightSum ψ net.inFlight = ψ d e + LpSystem.flightSum ψ rest := by
  have := h.flight ψ
  rwa [h.weight ψ hψ, Nat.add_zero] at this

/-- What a handler of the system does. -/
theorem Handles.cases : (∃ dim dir lane, LaneStep p d (net.nodes d).packetCounter dim dir
        ((net.nodes d).lane (queueOf dim dir)) e lane outs ∧
      Changes (net.nodes d) s' (queueOf dim dir) lane) ∨
    (∃ msg, e = .arrival msg ∧ d = msg.destLp ∧ s'.lane = (net.nodes d).lane ∧
      s'.totalDataSz = (net.nodes d).totalDataSz + p.chunkSize ∧
      outs = [(msg.senderNode, .credit msg.sourceDim msg.sourceDirection)]) := by
  obtain ⟨r, hr, hx⟩ := Option.map_eq_some_iff.1 h.handled.handle
  obtain ⟨rfl, rfl⟩ := Prod.mk.inj hx
  exact handle_cases hr

/-- What a step does to a flag. -/
theorem Handles.flag (n q : ℕ) : (net'.nodes n).inSendLoop q + sendIn (n, q) d e =
        (net.nodes n).inSendLoop q + LpSystem.flightSum (sendIn (n, q)) outs ∧
      ((net.nodes n).inSendLoop q ≤ 1 → (net'.nodes n).inSendLoop q ≤ 1) := by
  obtain ⟨dim, dir, lane, hstep, hch⟩ | ⟨msg, rfl, -, hlane, -, rfl⟩ := h.cases
  · have hflag := hstep.loop (fun dim' dir' he => ?_) (n, q)
    · by_cases hnq : (d, queueOf dim dir) = (n, q)
      · obtain ⟨rfl, rfl⟩ := Prod.mk.inj hnq
        have hself : s'.inSendLoop (queueOf dim dir) = lane.loop :=
          congrArg Lane.loop hch.lane_self
        rw [if_pos rfl, if_pos rfl] at hflag
        rw [h.handled.node_self, hself]
        exact ⟨hflag, hstep.loop_le⟩
      · rw [if_neg hnq, if_neg hnq] at hflag
        have hother : (net'.nodes n).inSendLoop q = (net.nodes n).inSendLoop q := by
          by_cases hnd : n = d
          · subst hnd
            have hq : q ≠ queueOf dim dir := fun hq => hnq (by rw [hq])
            rw [h.handled.node_self]
            refine congrArg Lane.loop (?_ : s'.lane q = (net.nodes n).lane q)
            rw [hch.lane, update_of_ne hq]
          · rw [h.handled.node_of_ne hnd]
        rw [hother]
        exact ⟨by omega, id⟩
    · -- the lane is the one the event is for
      subst he
      have := h.loop dim' dir' rfl
      cases hstep <;> exact this
  · have hother : (net'.nodes n).inSendLoop q = (net.nodes n).inSendLoop q := by
      by_cases hnd : n = d
      · subst hnd
        rw [h.handled.node_self]
        exact congrArg Lane.loop (congrFun hlane q)
      · rw [h.handled.node_of_ne hnd]
    rw [hother]
    exact ⟨by simp [sendIn], id⟩

/-- A flag still counts the `SEND` events of its queue. -/
theorem Handles.flagged (hinv : Flagged net) : Flagged net' := by
  refine ⟨fun n q => ?_, fun n q => (h.flag n q).2 (hinv.le_one n q)⟩
  have hold := hinv.count n q
  have hflag := (h.flag n q).1
  rw [h.inFlight (sendIn (n, q)) (fun _ _ => rfl)] at hold
  rw [h.handled.inFlight, LpSystem.flightSum_append]
  omega

end

theorem flagged_init : Flagged initNet := ⟨fun _ _ => rfl, fun _ _ => Nat.zero_le 1⟩

theorem Conserved.buffer_nonneg (hinv : Conserved p net) {n : ℕ} (hn : n < numNodes p.dimLength)
    (q : ℕ) : 0 ≤ (net.nodes n).buffer q := by
  rw [hinv.slots n q hn]
  positivity

theorem Takes.all (h : Takes p net net' l env d e s' outs rest)
    (hint : p.Ints) (hinv : Conserved p net) :
    LpSystem.All (fun n s => ∀ q, LaneOk p n q (s.lane q)) (EventOk p) net' := by
  have hall : LpSystem.All (fun n s => ∀ q, LaneOk p n q (s.lane q)) (EventOk p) net :=
    ⟨hinv.lanes, hinv.events⟩
  refine hall.step h.handled h.rest_mem ?_ ?_
  · obtain ⟨dim, dir, lane, hstep, hch⟩ | ⟨msg, rfl, -, hlane, -, -⟩ := h.cases
    · intro q
      rw [hch.lane]
      by_cases hq : q = queueOf dim dir
      · rw [hq, update_self]
        exact hstep.laneOk hint (hinv.lanes _ _) (hinv.buffer_nonneg h.eventOk.1 _) h.eventOk
      · rw [update_of_ne hq]
        exact hinv.lanes _ _
    · rw [hlane]
      exact hinv.lanes d
  · obtain ⟨dim, dir, lane, hstep, hch⟩ | ⟨msg, rfl, -, -, -, rfl⟩ := h.cases
    · exact hstep.eventOk hint (hinv.lanes _ _) h.eventOk
    · exact List.forall_mem_singleton.2 h.eventOk.2.credit

/-- What a step does to the slots of the network: a chunk takes a slot of the channel `enter`, and
the slot of the channel `leave` is on its way back. -/
structure Transfer (p : Param) (net net' : TorusNet) (d : ℕ) (e : Event)
    (enter leave : Option (ℕ × ℕ)) : Prop where
  held : ∀ ch, held p ch net' + slot leave ch = held p ch net + slot enter ch
  credits : ∀ ch, credits ch net' + creditIn ch d e = credits ch net + slot leave ch
  buffer : ∀ q, (net'.nodes d).buffer q + p.chunkSize * creditIn (d, q) d e =
    (net.nodes d).buffer q + p.chunkSize * slot enter (d, q)
  room : ∀ ch, enter = some ch → ch.1 = d ∧
    ((net'.nodes d).buffer ch.2 + p.chunkSize ≤ p.bufferSize ∨
      ∃ u < numNodes p.dimLength, leave = some (u, ch.2) ∧ d = ringNext p ch.2 u)

theorem Takes.transfer (h : Takes p net net' l env d e s' outs rest)
    (hint : p.Ints) (hinv : Conserved p net) :
    ∃ enter leave, Transfer p net net' d e enter leave := by
  -- the sums over the network follow those over the lanes of the node
  have hheld : ∀ ch enter leave,
      (∑ q ∈ Finset.range (2 * p.dimLength.length), (s'.lane q).held ch d q) +
        LpSystem.flightSum (heldIn ch) outs + slot leave ch =
      (∑ q ∈ Finset.range (2 * p.dimLength.length), ((net.nodes d).lane q).held ch d q) +
        heldIn ch d e + slot enter ch →
      Torus.held p ch net' + slot leave ch = Torus.held p ch net + slot enter ch := by
    intro ch enter leave hlane
    have htotal := h.handled.total (A := Finset.range (numNodes p.dimLength))
      (fun n s => ∑ q ∈ Finset.range (2 * p.dimLength.length), (s.lane q).held ch n q)
      (heldIn ch) (Finset.mem_range.2 h.eventOk.1)
    rw [← h.inFlight (heldIn ch) (fun _ _ => rfl)] at htotal
    rw [Torus.held, Torus.held]
    omega
  have hcredits : ∀ ch leave, LpSystem.flightSum (creditIn ch) outs = slot leave ch →
      Torus.credits ch net' + creditIn ch d e = Torus.credits ch net + slot leave ch := by
    intro ch leave hout
    rw [Torus.credits, Torus.credits, h.handled.inFlight, LpSystem.flightSum_append, hout,
      h.inFlight (creditIn ch) (fun _ _ => rfl)]
    omega
  obtain ⟨dim, dir, lane, hstep, hch⟩ | ⟨msg, rfl, -, hlane, -, rfl⟩ := h.cases
  · obtain ⟨enter, leave, ht⟩ := hstep.transfer hint (hinv.lanes _ _)
      (hinv.buffer_nonneg h.eventOk.1 _) h.eventOk
    have hdim := hstep.dim_lt h.eventOk
    have hq : queueOf dim dir < 2 * p.dimLength.length := by
      rw [queueOf]
      omega
    have hbuffer : s'.buffer (queueOf dim dir) = lane.buffer := congrArg Lane.buffer hch.lane_self
    refine ⟨enter, leave, fun ch => hheld ch enter leave ?_, fun ch => hcredits ch leave
      (ht.credit ch), fun q => ?_, fun ch hent => ?_⟩
    · have hsum := LpSystem.sum_update (fun q l => l.held ch d q) (net.nodes d).lane
        (Finset.mem_range.2 hq) lane
      rw [← hch.lane] at hsum
      have := ht.held ch
      omega
    · rw [h.handled.node_self]
      by_cases hqq : q = queueOf dim dir
      · rw [hqq, hbuffer]
        exact ht.buffer
      · have hb : s'.lane q = (net.nodes d).lane q := by rw [hch.lane, update_of_ne hqq]
        have henter : slot enter (d, q) = 0 := by
          rcases ht.room with hent | ⟨hent, -⟩
          · rw [hent, slot_none]
          · rw [hent, slot_some, if_neg (by simp [Ne.symm hqq])]
        have hb' : s'.buffer q = (net.nodes d).buffer q := congrArg Lane.buffer hb
        rw [hb', henter, ht.credit_here q hqq]
    · rcases ht.room with hent' | ⟨hent', hroom⟩
      · simp [hent'] at hent
      · obtain rfl : (d, queueOf dim dir) = ch := by simpa [hent'] using hent
        refine ⟨rfl, ?_⟩
        rw [h.handled.node_self, hbuffer]
        exact hroom.imp_right fun hroom => hroom.2
  · refine ⟨none, some (msg.senderNode, msg.queue), fun ch => hheld ch none _ ?_,
      fun ch => hcredits ch _ ?_, fun q => ?_, by simp⟩
    · rw [hlane]
      simp [heldIn]
    · simp [creditIn, Msg.queue]
    · rw [h.handled.node_self]
      have hb : s'.buffer q = (net.nodes d).buffer q := congrArg Lane.buffer (congrFun hlane q)
      simp [creditIn, hb]

theorem Takes.slots (h : Takes p net net' l env d e s' outs rest) (hinv : Conserved p net)
    {enter leave : Option (ℕ × ℕ)} (ht : Transfer p net net' d e enter leave) (n q : ℕ)
    (hn : n < numNodes p.dimLength) : (net'.nodes n).buffer q =
      p.chunkSize * (held p (n, q) net' + credits (n, q) net') := by
  have h1 := ht.held (n, q)
  have h2 := ht.credits (n, q)
  have h3 := hinv.slots n q hn
  by_cases hnd : n = d
  · subst hnd
    have h4 := ht.buffer q
    have h5 : (held p (n, q) net' + credits (n, q) net' : ℤ) + creditIn (n, q) n e =
        held p (n, q) net + credits (n, q) net + slot enter (n, q) := by omega
    rw [h3] at h4
    linear_combination h4 - (p.chunkSize : ℤ) * h5
  · have henter : slot enter (n, q) = 0 := by
      cases hent : enter with
      | none => rfl
      | some ch =>
        rw [slot_some, if_neg]
        rintro rfl
        exact hnd (ht.room _ hent).1
    have hcredit : creditIn (n, q) d e = 0 := by
      cases e <;> simp [creditIn, Ne.symm hnd]
    have h5 : (held p (n, q) net' + credits (n, q) net' : ℤ) =
        held p (n, q) net + credits (n, q) net := by omega
    rw [h.handled.node_of_ne hnd, h3, h5]

/-! ### Reachable states -/

theorem laneOk_init (p : Param) (n q : ℕ) : LaneOk p n q (Node.init.lane q) where
  terminal _ hc := by cases hc
  pending _ hc := by cases hc
  queued _ hc := by cases hc
  other _ hc := by cases hc
  buffer_le := Int.natCast_nonneg _
  queued_full h := absurd rfl h
  other_full h := absurd rfl h
  terminal_full h := absurd rfl h
  pending_loop h := absurd rfl h
  loop_le := Nat.zero_le 1

theorem held_init (p : Param) (ch : ℕ × ℕ) : held p ch initNet = 0 := by
  simp [held, initNet, LpSystem.nodeSum, Node.lane, Node.init, Lane.held]

theorem conserved_init (p : Param) : Conserved p initNet where
  toFlagged := flagged_init
  lanes n q := laneOk_init p n q
  events _ hx := by cases hx
  slots n q _ := by
    rw [held_init]
    simp [initNet, Node.init, credits]

theorem Takes.conserved (h : Takes p net net' l env d e s' outs rest)
    (hint : p.Ints) (hinv : Conserved p net) : Conserved p net' := by
  obtain ⟨enter, leave, ht⟩ := h.transfer hint hinv
  obtain ⟨hlanes, hevents⟩ := h.all hint hinv
  exact ⟨h.flagged hinv.toFlagged, hlanes, hevents, h.slots hinv ht⟩

/-! ### Where the chunks are -/

/-- The chunks in a lane whose identity satisfies `P`. -/
def Lane.located (P : ChunkIdent → Bool) (l : Lane) : ℕ :=
  l.terminal.countP (P ·.ident) + l.pending.countP (P ·.ident) + l.queued.countP (P ·.ident) +
    l.other.countP (P ·.ident)

/-- The chunk on a link, if its identity satisfies `P`. -/
def locatedIn (P : ChunkIdent → Bool) : ℕ → Event → ℕ
  | _, .arrival msg => if P msg.ident then 1 else 0
  | _, _ => 0

/-- The chunks whose identity satisfies `P`, in the lists of the nodes and on the links. -/
def located (p : Param) (P : ChunkIdent → Bool) (net : TorusNet) : ℕ :=
  LpSystem.nodeSum (Finset.range (numNodes p.dimLength))
      (fun _ s => ∑ q ∈ Finset.range (2 * p.dimLength.length), (s.lane q).located P) net +
    LpSystem.flightSum (locatedIn P) net.inFlight

/-- The chunks that an event makes at a node that has numbered `id` packets. -/
def madeBy (p : Param) (id : ℕ) : Event → List ChunkIdent
  | .generate msg => chunkIdents p id msg
  | _ => []

/-- The chunk that an event delivers at node `d`. -/
def takenBy (d : ℕ) : Event → List ChunkIdent
  | .arrival msg => if msg.destLp = d then [msg.ident] else []
  | _ => []

@[simp] theorem locatedIn_startOuts {l : Lane} {self dim dir : ℕ} (P : ChunkIdent → Bool) :
    LpSystem.flightSum (locatedIn P) (l.startOuts self dim dir) = 0 := by
  unfold Lane.startOuts
  split_ifs
  · rfl
  · rfl

@[simp] theorem locatedIn_goOnOuts {self dim dir : ℕ} (P : ChunkIdent → Bool) (more : Bool) :
    LpSystem.flightSum (locatedIn P) (Lane.goOnOuts self dim dir more) = 0 := by
  cases more <;> rfl

theorem LaneStep.located {self id dim dir : ℕ} {l l' : Lane}
    (h : LaneStep p self id dim dir l e l' outs)
    (P : ChunkIdent → Bool) :
    l'.located P + LpSystem.flightSum (locatedIn P) outs =
      l.located P + locatedIn P self e + (madeBy p id e).countP P := by
  cases h with
  | generate msg chunks hids =>
    have hcount : chunks.countP (P ·.ident) = (chunkIdents p id msg).countP P := by
      rw [← hids, List.countP_map]
      rfl
    simp only [Lane.located, Lane.start, List.countP_append, locatedIn_startOuts, hcount, madeBy,
      locatedIn]
    omega
  | sendNone => simp [Lane.located, Lane.goOn, locatedIn, madeBy]
  | sendPending c c' rest more hpending hc =>
    simp only [Lane.located, Lane.goOn, locatedIn, madeBy, hpending, List.countP_cons, hc.ident,
      LpSystem.flightSum_cons, locatedIn_goOnOuts, List.countP_nil]
    omega
  | sendTerminal c c' rest more hpending hterminal hc =>
    simp only [Lane.located, Lane.goOn, locatedIn, madeBy, hterminal, List.countP_cons, hc.ident,
      LpSystem.flightSum_cons, locatedIn_goOnOuts, List.countP_nil]
    omega
  | arriveRoom msg c hc | arriveOther msg c hc | arriveQueued msg c hc =>
    simp [Lane.located, Lane.start, locatedIn, madeBy, List.countP_append, hc.ident,
      List.countP_cons]
    omega
  | creditQueued c rest hqueued =>
    simp [Lane.located, Lane.start, locatedIn, madeBy, hqueued, List.countP_append,
      List.countP_cons]
    omega
  | creditOther c rest _ hother =>
    simp [Lane.located, Lane.start, locatedIn, madeBy, hother, List.countP_append,
      List.countP_cons]
    omega
  | creditNone => simp [Lane.located, Lane.start, locatedIn, madeBy]

theorem LaneStep.takenBy_eq {self id dim dir : ℕ} {l l' : Lane}
    (h : LaneStep p self id dim dir l e l' outs) :
    takenBy self e = [] := by
  cases h with
  | arriveRoom msg c hc | arriveOther msg c hc | arriveQueued msg c hc =>
    have hne := ne_of_dor hc.routed.dor
    rw [hc.dest] at hne
    exact if_neg hne
  | generate | sendNone | sendPending | sendTerminal | creditQueued | creditOther | creditNone =>
    rfl

theorem Takes.located (h : Takes p net net' l env d e s' outs rest) (P : ChunkIdent → Bool) :
    Torus.located p P net' + (takenBy d e).countP P =
      Torus.located p P net + (madeBy p (net.nodes d).packetCounter e).countP P := by
  have htotal := h.handled.total (A := Finset.range (numNodes p.dimLength))
    (fun _ s => ∑ q ∈ Finset.range (2 * p.dimLength.length), (s.lane q).located P)
    (locatedIn P) (Finset.mem_range.2 h.eventOk.1)
  rw [← h.inFlight (locatedIn P) (fun _ _ => rfl)] at htotal
  rw [Torus.located, Torus.located]
  rcases h.cases with ⟨dim, dir, lane, hstep, hch⟩ | ⟨msg, rfl, hd, hlane, -, rfl⟩
  · have hdim := hstep.dim_lt h.eventOk
    have hq : queueOf dim dir < 2 * p.dimLength.length := by
      rw [queueOf]
      omega
    have hsum := LpSystem.sum_update (fun _ l => l.located P) (net.nodes d).lane
      (Finset.mem_range.2 hq) lane
    rw [← hch.lane] at hsum
    have hloc := hstep.located P
    have htaken : takenBy d e = [] := hstep.takenBy_eq
    rw [htaken, List.countP_nil]
    omega
  · rw [hlane] at htotal
    have htaken : (takenBy d (.arrival msg)).countP P = locatedIn P d (.arrival msg) := by
      simp [takenBy, locatedIn, hd, List.countP_cons]
    have hmade : (madeBy p (net.nodes d).packetCounter (.arrival msg)).countP P = 0 := rfl
    rw [htaken, hmade]
    simp only [locatedIn, LpSystem.flightSum_cons, LpSystem.flightSum_nil] at htotal ⊢
    omega

/-! ### The parts of a buffer -/

/-- The chunks on the link of the queue `dim`, `dir` of node `n`. -/
def onLink (p : Param) (n dim dir : ℕ) (net : TorusNet) : ℕ :=
  net.inFlight.countP fun x => match x.2 with
    | .arrival c => x.1 = neighbour p.dimLength n dim dir ∧ c.senderNode = n ∧
        c.sourceDim = dim ∧ c.sourceDirection = dir
    | _ => False

/-- The chunks that came through the queue `dim`, `dir` of node `n` and wait at the next node. -/
def parked (p : Param) (n dim dir : ℕ) (net : TorusNet) : ℕ :=
  ∑ q ∈ Finset.range (2 * p.dimLength.length),
    (((net.nodes (neighbour p.dimLength n dim dir)).queuedMsgs q).countP
        (·.holds (n, queueOf dim dir)) +
      ((net.nodes (neighbour p.dimLength n dim dir)).otherMsgs q).countP
        (·.holds (n, queueOf dim dir)))

/-- The credits on their way to the queue `dim`, `dir` of node `n`. -/
def creditsFor (n dim dir : ℕ) (net : TorusNet) : ℕ := net.inFlight.count (n, .credit dim dir)

/-- The `SEND` events for the queue `dim`, `dir` of node `n`. -/
def sendsFor (n dim dir : ℕ) (net : TorusNet) : ℕ := net.inFlight.count (n, .send dim dir)

theorem queueOf_inj {dim dir dim' dir' : ℕ} (hdir : dir < 2) (hdir' : dir' < 2) :
    queueOf dim dir = queueOf dim' dir' ↔ dim = dim' ∧ dir = dir' := by
  rw [queueOf, queueOf]
  omega

theorem flightSum_ite (P : ℕ × Event → Bool) (l : List (ℕ × Event)) :
    LpSystem.flightSum (fun d e => if P (d, e) then 1 else 0) l = l.countP P := by
  induction l with
  | nil => rfl
  | cons x l ih =>
    rw [show x :: l = (x.1, x.2) :: l from rfl, LpSystem.flightSum_cons, ih, List.countP_cons,
      Nat.add_comm]

section Parts

variable {n dim dir : ℕ} (hinv : Conserved p net) (hdir : dir < 2)

include hinv hdir

theorem Conserved.credits_eq : credits (n, queueOf dim dir) net = creditsFor n dim dir net := by
  rw [credits, creditsFor, List.count, ← flightSum_ite]
  refine LpSystem.flightSum_congr fun x hx => ?_
  obtain ⟨d, e⟩ := x
  have hok := (hinv.events _ hx).2
  cases e with
  | generate | arrival | send => simp [creditIn]
  | credit dim' dir' => simp [creditIn, queueOf_inj hok.2 hdir]

theorem Conserved.sends_eq :
    LpSystem.flightSum (sendIn (n, queueOf dim dir)) net.inFlight = sendsFor n dim dir net := by
  rw [sendsFor, List.count, ← flightSum_ite]
  refine LpSystem.flightSum_congr fun x hx => ?_
  obtain ⟨d, e⟩ := x
  have hok := (hinv.events _ hx).2
  cases e with
  | generate | arrival | credit => simp [sendIn]
  | send dim' dir' => simp [sendIn, queueOf_inj hok.2 hdir]

theorem Conserved.onLink_eq :
    LpSystem.flightSum (heldIn (n, queueOf dim dir)) net.inFlight = onLink p n dim dir net := by
  rw [onLink, ← flightSum_ite]
  refine LpSystem.flightSum_congr fun x hx => ?_
  obtain ⟨d, e⟩ := x
  cases e with
  | generate | credit | send => simp [heldIn]
  | arrival c =>
    have hby : c.CameBy p.dimLength d c.sourceDim c.sourceDirection := (hinv.events _ hx).2
    have hinj : queueOf c.sourceDim c.sourceDirection = queueOf dim dir ↔ _ :=
      queueOf_inj (dor_lt hby.dor).2 hdir
    simp only [heldIn, Msg.queue, Prod.mk.injEq, hinj, decide_eq_true_eq]
    refine if_congr ⟨fun h => ⟨?_, h⟩, fun h => h.2⟩ rfl rfl
    rw [hby.here, h.1, h.2.1, h.2.2]

theorem Conserved.not_holds {m q : ℕ} (hm : m ≠ neighbour p.dimLength n dim dir) {c : Msg}
    (hc : c ∈ (net.nodes m).queuedMsgs q ∨ c ∈ (net.nodes m).otherMsgs q) :
    ¬ c.holds (n, queueOf dim dir) = true := by
  have hok := hinv.lanes m q
  have hlift : ∃ d d', c.savedQueue = queueOf d d' ∧ c.CameBy p.dimLength m d d' := by
    rcases hc with hc | hc
    · obtain ⟨hat, hsaved, hby⟩ := hok.queued c hc
      exact ⟨_, _, by rw [hsaved, ← hat.queue]; rfl, hby⟩
    · obtain ⟨-, d, d', -, hsaved, hby⟩ := hok.other c hc
      exact ⟨d, d', hsaved, hby⟩
  obtain ⟨d, d', hsaved, hby⟩ := hlift
  rw [Msg.holds_iff hsaved]
  simp only [Prod.mk.injEq, decide_eq_true_eq, not_and]
  intro hn hq
  obtain ⟨rfl, rfl⟩ := (queueOf_inj (dor_lt hby.dor).2 hdir).1 hq
  exact hm (by rw [hby.here, hn])

theorem Conserved.held_eq (hint : p.Ints) (hn : n < numNodes p.dimLength)
    (hdim : dim < p.dimLength.length) : held p (n, queueOf dim dir) net =
      ((net.nodes n).pendingMsgs (queueOf dim dir)).length + onLink p n dim dir net +
        parked p n dim dir net := by
  have hq : queueOf dim dir < 2 * p.dimLength.length := by
    rw [queueOf]
    omega
  have hpending : ∑ m ∈ Finset.range (numNodes p.dimLength),
      ∑ q ∈ Finset.range (2 * p.dimLength.length),
        (if (m, q) = (n, queueOf dim dir) then ((net.nodes m).pendingMsgs q).length else 0) =
      ((net.nodes n).pendingMsgs (queueOf dim dir)).length := by
    rw [Finset.sum_eq_single_of_mem n (Finset.mem_range.2 hn),
      Finset.sum_eq_single_of_mem _ (Finset.mem_range.2 hq), if_pos rfl]
    · exact fun q _ hne => if_neg fun h => hne (congrArg Prod.snd h)
    · exact fun m _ hne => Finset.sum_eq_zero fun q _ => if_neg fun h => hne (congrArg Prod.fst h)
  have hparked : ∑ m ∈ Finset.range (numNodes p.dimLength),
      ∑ q ∈ Finset.range (2 * p.dimLength.length),
        (((net.nodes m).queuedMsgs q).countP (·.holds (n, queueOf dim dir)) +
          ((net.nodes m).otherMsgs q).countP (·.holds (n, queueOf dim dir))) =
      parked p n dim dir net := by
    refine Finset.sum_eq_single_of_mem _ (Finset.mem_range.2 (neighbour_lt hint.toLengths _ _ _))
      fun m _ hm => Finset.sum_eq_zero fun q _ => ?_
    rw [List.countP_eq_zero.2 fun c hc => hinv.not_holds hdir hm (.inl hc),
      List.countP_eq_zero.2 fun c hc => hinv.not_holds hdir hm (.inr hc), Nat.add_zero]
  rw [held, hinv.onLink_eq hdir, LpSystem.nodeSum, ← hpending, ← hparked, Nat.add_right_comm,
    ← Finset.sum_add_distrib]
  congr 1
  refine Finset.sum_congr rfl fun m _ => ?_
  rw [← Finset.sum_add_distrib]
  exact Finset.sum_congr rfl fun q _ => Nat.add_assoc ..

end Parts

/-! ### Histories -/

/-- A network with the chunks generated and delivered so far. -/
structure History where
  net : TorusNet
  generated : List ChunkIdent
  delivered : List ChunkIdent

def History.init : History := ⟨initNet, [], []⟩

/-- The network, with a record of the chunks that the event of a step makes or delivers. -/
def historyMachine (p : Param) : Machine History TorusLabel where
  step h l := ((system p).machine.step h.net l).map fun net' =>
    { net := net'
      generated := h.generated ++ ((h.net.event l).toList.flatMap fun x =>
        madeBy p (h.net.nodes x.1).packetCounter x.2)
      delivered := h.delivered ++ ((h.net.event l).toList.flatMap fun x => takenBy x.1 x.2) }

/-- Only packets come from outside. -/
def FromOutside (p : Param) : TorusLabel → Prop
  | .inject d (.generate msg) _ => d < numNodes p.dimLength ∧ msg.destLp < numNodes p.dimLength
  | .inject _ _ _ => False
  | .deliver _ _ => True

/-- A packet for its own node fails the assertion of the routing. -/
theorem FromOutside.admissible (hl : FromOutside p l)
    (h : (system p).machine.step net l = some net') : Admissible p l := by
  cases l with
  | deliver => trivial
  | inject d e env =>
    cases e with
    | arrival | send | credit => exact hl.elim
    | generate msg =>
      refine ⟨hl.1, hl.2, ?_⟩
      obtain ⟨x, hx, -⟩ := Option.map_eq_some_iff.1 h
      obtain ⟨r, hr, -⟩ := Option.map_eq_some_iff.1 hx
      obtain ⟨⟨dim, dir⟩, hdor, -⟩ := Option.map_eq_some_iff.1 hr
      exact ne_of_dor hdor

/-- What holds of every history. -/
structure History.Ok (p : Param) (h : History) : Prop where
  conserved : Conserved p h.net
  account : ∀ x, h.generated.count x = h.delivered.count x + located p (· == x) h.net

theorem History.ok_init (p : Param) : History.init.Ok p := by
  refine ⟨conserved_init p, fun x => ?_⟩
  simp [History.init, initNet, located, LpSystem.nodeSum, Node.lane, Node.init, Lane.located]

theorem History.Ok.step (hint : p.Ints) {h h' : History}
    (hok : h.Ok p) (hl : FromOutside p l) (hstep : (historyMachine p).step h l = some h') :
    h'.Ok p := by
  obtain ⟨net', hnet, rfl⟩ := Option.map_eq_some_iff.1 hstep
  obtain ⟨env, d, e, s', outs, rest, ht⟩ := step_takes hok.conserved (hl.admissible hnet) hnet
  refine ⟨ht.conserved hint hok.conserved, fun x => ?_⟩
  have hloc := ht.located (· == x)
  have hacc := hok.account x
  simp only [ht.event, Option.toList_some, List.flatMap_singleton, List.count_append]
  simp only [List.count] at hacc ⊢
  omega

/-- **Credits and chunks are conserved.**  In every state that packets and any order of the events
in flight lead to, the buffer of every queue counts the chunks that wait for its link, are on it or
wait behind it, and the credits that come back; it is within its size; the loop flag counts the
`SEND` events; and every chunk generated has been delivered or is in one place. -/
theorem torus_credits_conserved (p : Param) (hint : p.Ints)
    (ls : List TorusLabel) (hls : ∀ l ∈ ls, FromOutside p l) (h : History)
    (hrun : (historyMachine p).run History.init ls = some h) :
    (∀ n < numNodes p.dimLength, ∀ dim < p.dimLength.length, ∀ dir < 2,
      (h.net.nodes n).buffer (queueOf dim dir) = p.chunkSize *
        (((h.net.nodes n).pendingMsgs (queueOf dim dir)).length + onLink p n dim dir h.net +
          parked p n dim dir h.net + creditsFor n dim dir h.net) ∧
      0 ≤ (h.net.nodes n).buffer (queueOf dim dir) ∧
      (h.net.nodes n).buffer (queueOf dim dir) ≤ p.bufferSize ∧
      (h.net.nodes n).inSendLoop (queueOf dim dir) = sendsFor n dim dir h.net ∧
      (h.net.nodes n).inSendLoop (queueOf dim dir) ≤ 1) ∧
    ∀ x, h.generated.count x = h.delivered.count x + located p (· == x) h.net := by
  have hok : h.Ok p := Machine.run_invariant
    (fun _ _ _ hs hl hstep => hs.step hint hl hstep) (History.ok_init p) hls hrun
  refine ⟨fun n hn dim hdim dir hdir => ?_, hok.account⟩
  have hinv := hok.conserved
  have hslots := hinv.slots n (queueOf dim dir) hn
  rw [hinv.held_eq hdir hint hn hdim, hinv.credits_eq hdir] at hslots
  refine ⟨?_, ?_, (hinv.lanes n _).buffer_le, ?_, (hinv.lanes n _).loop_le⟩
  · rw [hslots]
    push_cast
    rfl
  · exact hinv.buffer_nonneg hn _
  · rw [hinv.count n, hinv.sends_eq hdir]

/-- A ring of two nodes. -/
def ringOf (bufferSize chunkSize : ℕ) : Param := ⟨[2], bufferSize, chunkSize, 0, 0, 0, 0⟩

/-- A packet of `packetSize` bytes from node 0 to node 1, and events delivered in this order. -/
def packetThen (packetSize : ℕ) (order : List ℕ) : List TorusLabel :=
  let env : Env := ⟨0, fun _ => 0, fun _ => 0, 0⟩
  .inject 0 (.generate { (default : Msg) with destLp := 1, packetSize := packetSize }) env ::
    order.map fun i => .deliver i env

theorem packetThen_fromOutside (packetSize bufferSize chunkSize : ℕ) (order : List ℕ) :
    ∀ l ∈ packetThen packetSize order, FromOutside (ringOf bufferSize chunkSize) l := by
  have hnodes : 1 < numNodes (ringOf bufferSize chunkSize).dimLength := by
    change 1 < numNodes [2]
    decide
  refine List.forall_mem_cons.2 ⟨⟨Nat.zero_lt_of_lt hnodes, hnodes⟩, fun l hl => ?_⟩
  obtain ⟨i, -, rfl⟩ := List.mem_map.1 hl
  trivial

/-- One chunk of a packet is on its link and the slot of another one comes back. -/
theorem torus_credits_conserved_twoChunks : ∃ h,
    (historyMachine (ringOf 3 1)).run History.init (packetThen 2 [0, 1, 0]) = some h ∧
      onLink (ringOf 3 1) 0 0 1 h.net = 1 ∧ creditsFor 0 0 1 h.net = 1 ∧
      (h.net.nodes 0).buffer (queueOf 0 1) = 2 ∧ (h.net.nodes 0).buffer (queueOf 0 1) ≤ 3 := by
  refine ⟨_, rfl, by decide, by decide, rfl, ?_⟩
  exact ((torus_credits_conserved (ringOf 3 1) ⟨⟨by decide, by decide, by decide⟩, by decide⟩
    (packetThen 2 [0, 1, 0]) (packetThen_fromOutside 2 3 1 _) _ rfl).1 0 (by decide) 0 (by decide) 1
      (by decide)).2.2.1

/-- Chunks of `2 ^ 29` bytes and buffers of `2 ^ 31 - 1`: the sum that is compared with the size
overflows at the third chunk, and a fourth one gets a slot too. -/
theorem wideBuffers_overfull : ∃ h,
    (historyMachine (ringOf (2 ^ 31 - 1) (2 ^ 29))).run History.init
      (packetThen (2 ^ 31) [0, 1, 2, 3]) = some h ∧
    (∀ l ∈ packetThen (2 ^ 31) [0, 1, 2, 3], FromOutside (ringOf (2 ^ 31 - 1) (2 ^ 29)) l) ∧
    (h.net.nodes 0).buffer (queueOf 0 1) = 2 ^ 31 ∧
    CodesMapping.wrapInt ((h.net.nodes 0).buffer (queueOf 0 1)) < 0 := by
  have hbuffer : ((historyMachine (ringOf (2 ^ 31 - 1) (2 ^ 29))).run History.init
      (packetThen (2 ^ 31) [0, 1, 2, 3])).map (fun h => (h.net.nodes 0).buffer (queueOf 0 1)) =
        some (2 ^ 31) := by decide +kernel
  obtain ⟨h, hrun, hbuf⟩ := Option.map_eq_some_iff.1 hbuffer
  exact ⟨h, hrun, packetThen_fromOutside _ _ _ _, hbuf, by rw [hbuf]; decide⟩

end CodesSim.Torus
