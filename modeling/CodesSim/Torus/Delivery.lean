import CodesSim.Torus.Deadlock
import Mathlib.Tactic.IntervalCases

/-!
# Every chunk is delivered

The chunks for a node that are in the network, together with the bytes that the node has received,
account for everything injected for it (`run_aimed`).  So in a state without deadlock and with
nothing in flight everything injected has been delivered (`bubble_deadlock_free`).
-/

namespace CodesSim.Torus

/-- The chunks for node `d` in a lane. -/
def Lane.aimed (d : ℕ) (l : Lane) : ℕ :=
  l.terminal.countP (·.destLp = d) + l.pending.countP (·.destLp = d) +
    l.queued.countP (·.destLp = d) + l.other.countP (·.destLp = d)

/-- The chunks for node `d` that an event brings. -/
def aimedIn (p : Param) (d : ℕ) : ℕ → Event → ℕ
  | _, .generate msg => if msg.destLp = d then numChunks msg.packetSize p.chunkSize else 0
  | _, .arrival msg => if msg.destLp = d then 1 else 0
  | _, _ => 0

/-- The chunks for node `d` in the network. -/
def aimed (p : Param) (d : ℕ) (net : TorusNet) : ℕ :=
  LpSystem.nodeSum (Finset.range (numNodes p.dimLength))
      (fun _ s => ∑ q ∈ Finset.range (2 * p.dimLength.length), (s.lane q).aimed d) net +
    LpSystem.flightSum (aimedIn p d) net.inFlight

/-- The chunks for node `d` injected in a run. -/
def injectedFor (p : Param) (d : ℕ) (ls : List (TorusLabel)) : ℕ :=
  (ls.map (LpSystem.weight (aimedIn p d))).sum

variable {p : Param} {net net' : TorusNet}

@[simp] theorem aimedIn_startOuts {l : Lane} {self dim dir : ℕ} (d : ℕ) :
    LpSystem.flightSum (aimedIn p d) (l.startOuts self dim dir) = 0 := by
  unfold Lane.startOuts
  split_ifs
  · rfl
  · rfl

@[simp] theorem aimedIn_goOnOuts {self dim dir : ℕ} (d : ℕ) (more : Bool) :
    LpSystem.flightSum (aimedIn p d) (Lane.goOnOuts self dim dir more) = 0 := by
  cases more <;> rfl

@[simp] theorem locatedIn_arrival (d n : ℕ) (msg : Msg) :
    locatedIn (·.destLp = d) n (.arrival msg) = if msg.destLp = d then 1 else 0 :=
  if_congr decide_eq_true_iff rfl rfl

theorem aimedIn_eq (d id self : ℕ) (e : Event) : aimedIn p d self e =
    locatedIn (·.destLp = d) self e + (madeBy p id e).countP (·.destLp = d) := by
  cases e with
  | generate msg =>
    by_cases hd : msg.destLp = d <;>
      simp [aimedIn, locatedIn, madeBy, chunkIdents, List.countP_map, Msg.ident, hd,
        Function.comp_def]
  | arrival => simp [aimedIn, madeBy]
  | send | credit => rfl

/-- No handler sends a packet. -/
theorem LaneStep.aimedIn_outs {self id dim dir : ℕ} {l l' : Lane} {e : Event}
    {outs : List (ℕ × Event)} (h : LaneStep p self id dim dir l e l' outs) (d : ℕ) :
    LpSystem.flightSum (aimedIn p d) outs =
      LpSystem.flightSum (locatedIn (·.destLp = d)) outs := by
  cases h with
  | sendPending | sendTerminal => simp [aimedIn]
  | arriveRoom | creditQueued | creditOther => simp [aimedIn, locatedIn]
  | generate | sendNone | arriveOther | arriveQueued | creditNone => simp

theorem LaneStep.aimed {self id dim dir : ℕ} {l l' : Lane} {e : Event} {outs : List (ℕ × Event)}
    (h : LaneStep p self id dim dir l e l' outs) (d : ℕ) :
    l'.aimed d + LpSystem.flightSum (aimedIn p d) outs = l.aimed d + aimedIn p d self e := by
  have hlocated := h.located (·.destLp = d)
  rw [h.aimedIn_outs, aimedIn_eq d id]
  exact hlocated.trans (Nat.add_assoc ..)

/-- What is delivered leaves the network. -/
theorem step_aimed {l : TorusLabel} (hinv : Inv p net) (hl : Admissible p l)
    (h : (system p).machine.step net l = some net') (n : ℕ) :
    (net'.nodes n).totalDataSz + p.chunkSize * aimed p n net' =
      (net.nodes n).totalDataSz +
        p.chunkSize * (aimed p n net + LpSystem.weight (aimedIn p n) l) := by
  obtain ⟨env, d, e, s', outs, rest, ht⟩ := step_takes hinv.toConserved hl h
  have htotal := ht.handled.total (A := Finset.range (numNodes p.dimLength))
    (fun _ s => ∑ q ∈ Finset.range (2 * p.dimLength.length), (s.lane q).aimed n)
    (aimedIn p n) (Finset.mem_range.2 ht.eventOk.1)
  rw [← ht.flight (aimedIn p n)] at htotal
  obtain ⟨dim, dir, lane, hstep, hch⟩ | ⟨msg, rfl, rfl, hlane, hdata, rfl⟩ := ht.cases
  · have hdim := hstep.dim_lt ht.eventOk
    have hq : queueOf dim dir < 2 * p.dimLength.length := by
      rw [queueOf]
      omega
    have hsum := LpSystem.sum_update (fun _ l => l.aimed n) (net.nodes d).lane
      (Finset.mem_range.2 hq) lane
    rw [← hch.lane] at hsum
    have hstep := hstep.aimed n
    have haimed : aimed p n net' = aimed p n net + LpSystem.weight (aimedIn p n) l := by
      rw [aimed, aimed]
      omega
    have hdata : (net'.nodes n).totalDataSz = (net.nodes n).totalDataSz := by
      by_cases hnd : n = d
      · rw [hnd, ht.handled.node_self, hch.data]
      · rw [ht.handled.node_of_ne hnd]
    rw [hdata, haimed]
    push_cast
    rfl
  · rw [hlane] at htotal
    have haimed : aimed p n net' + (if msg.destLp = n then 1 else 0) =
        aimed p n net + LpSystem.weight (aimedIn p n) l := by
      rw [aimed, aimed]
      simp only [aimedIn, LpSystem.flightSum_cons, LpSystem.flightSum_nil] at htotal ⊢
      omega
    by_cases hn : msg.destLp = n
    · rw [if_pos hn] at haimed
      rw [← hn, ht.handled.node_self, hdata, hn]
      have haimed : (aimed p n net' + 1 : ℤ) =
          aimed p n net + LpSystem.weight (aimedIn p n) l := by exact_mod_cast haimed
      linear_combination (p.chunkSize : ℤ) * haimed
    · rw [if_neg hn, Nat.add_zero] at haimed
      rw [ht.handled.node_of_ne (Ne.symm hn), haimed]
      push_cast
      rfl

theorem aimed_init (p : Param) (d : ℕ) : aimed p d initNet = 0 := by
  simp [aimed, initNet, LpSystem.nodeSum, Node.lane, Node.init, Lane.aimed]

section Runs

variable (hint : p.Ints) (hchunk : 0 < p.chunkSize)

include hint hchunk

theorem step_inv {l : TorusLabel} (hinv : Inv p net) (hl : Admissible p l)
    (h : (system p).machine.step net l = some net') : Inv p net' := by
  obtain ⟨env, d, e, s', outs, rest, ht⟩ := step_takes hinv.toConserved hl h
  exact ht.inv hint hchunk hinv

/-- **Nothing is lost.**  What a node has received and what is on its way to it is what was
injected for it. -/
theorem run_aimed {ls : List (TorusLabel)} (hinv : Inv p net)
    (hls : ∀ l ∈ ls, Admissible p l) (h : (system p).machine.run net ls = some net') (n : ℕ) :
    (net'.nodes n).totalDataSz + p.chunkSize * aimed p n net' =
      (net.nodes n).totalDataSz + p.chunkSize * (aimed p n net + injectedFor p n ls) := by
  induction ls generalizing net with
  | nil =>
    cases h
    simp [injectedFor]
  | cons l ls ih =>
    obtain ⟨hl, hls⟩ := List.forall_mem_cons.1 hls
    obtain ⟨t, ht, hrun⟩ := Machine.run_cons_eq_some.1 h
    rw [ih (step_inv hint hchunk hinv hl ht) hls hrun]
    have hstep := step_aimed hinv hl ht n
    simp only [injectedFor, List.map_cons, List.sum_cons, Nat.cast_add]
    linear_combination hstep

omit hchunk in
/-- Every event in flight can be handled: there is a hop for every chunk on its way. -/
theorem Inv.deliver_isSome (hinv : Inv p net) (i : ℕ) (env : Env) (hi : i < net.inFlight.length) :
    ((system p).machine.step net (.deliver i env)).isSome := by
  obtain ⟨⟨d, e⟩, hget⟩ : ∃ x, net.inFlight[i]? = some x := ⟨_, List.getElem?_eq_getElem hi⟩
  have hok : EventOk p d e := hinv.events _ (List.mem_of_getElem? hget)
  have hhandle : (handle p env d (net.nodes d) e).isSome := by
    cases e with
    | send | credit => rfl
    | generate msg =>
      obtain ⟨dim, dir, hdor⟩ := dor_isSome hint.toLengths hok.1 hok.2.1 (Ne.symm hok.2.2)
      simp [handle, packetGenerate, hdor]
    | arrival msg =>
      by_cases hd : d = msg.destLp
      · simp [handle, packetArrive, hd]
      · obtain ⟨dim, dir, hdor⟩ := dor_isSome hint.toLengths hok.1 hok.2.dest hd
        simp [handle, packetArrive, hd, arriveTransit, hdor]
  simpa [LpSystem.machine, hget, LpSystem.process, system] using hhandle

end Runs

/-- **Bubble flow control is free of deadlock.**  In every state that packets for other nodes and
any order of the events in flight lead to, every ring has a channel with a free slot and every
event in flight can be handled; and if none is in flight, nothing waits and every node has
received what was injected for it. -/
theorem bubble_deadlock_free (p : Param) (hint : p.Ints)
    (hchunk : 0 < p.chunkSize) (hbuf : 2 * p.chunkSize ≤ p.bufferSize)
    (ls : List (TorusLabel)) (hls : ∀ l ∈ ls, Admissible p l) (net : TorusNet)
    (h : (system p).machine.run initNet ls = some net) :
    (∀ n dim dir, dim < p.dimLength.length → dir < 2 → ∃ i, p.chunkSize *
      (held p ((fun m => neighbour p.dimLength m dim dir)^[i] n, queueOf dim dir) net + 1) ≤
        p.bufferSize) ∧
    (∀ i env, i < net.inFlight.length →
      ((system p).machine.step net (.deliver i env)).isSome) ∧
    (net.inFlight = [] → ∀ n < numNodes p.dimLength,
      (∀ q, (net.nodes n).terminalMsgs q = [] ∧ (net.nodes n).pendingMsgs q = [] ∧
        (net.nodes n).queuedMsgs q = [] ∧ (net.nodes n).otherMsgs q = []) ∧
      (net.nodes n).totalDataSz = p.chunkSize * injectedFor p n ls) := by
  have hinv : Inv p net := Machine.run_invariant
    (fun _ _ _ hs hl hstep => step_inv hint hchunk hs hl hstep) (inv_init hchunk hbuf) hls h
  refine ⟨fun n dim dir _ hdir => ?_, hinv.deliver_isSome hint, fun hnone n hn => ?_⟩
  · obtain ⟨i, hi⟩ := hinv.ring n (queueOf dim dir)
    have hring : ringNext p (queueOf dim dir) = fun m => neighbour p.dimLength m dim dir := by
      funext m
      rw [ringNext, queueOf_div hdir, queueOf_mod hdir]
    rw [hring] at hi
    exact ⟨i, (free_iff hchunk).1 hi⟩
  · have hempty := fun {m} (hm : m < _) q => quiescent_empty hinv hnone hchunk hbuf hm q
    have haimed : aimed p n net = 0 := by
      rw [aimed, hnone, LpSystem.flightSum_nil, Nat.add_zero]
      refine Finset.sum_eq_zero fun m hm => Finset.sum_eq_zero fun q _ => ?_
      obtain ⟨h1, h2, h3, h4⟩ := hempty (Finset.mem_range.1 hm) q
      simp [Lane.aimed, Node.lane, h1, h2, h3, h4]
    have hrun := run_aimed hint hchunk (inv_init hchunk hbuf) hls h n
    rw [haimed, aimed_init] at hrun
    refine ⟨hempty hn, ?_⟩
    simpa [initNet, Node.init] using hrun

/-- A packet of two chunks from node 0 to node 1: the second one waits for the credit of the
first. -/
theorem bubble_deadlock_free_twoChunks : ∃ net,
    (system (ringOf 2 1)).machine.run initNet (packetThen 2 (List.replicate 8 0)) = some net ∧
      net.inFlight = [] ∧ (net.nodes 1).totalDataSz = 2 := by
  have hint : (ringOf 2 1).Ints := ⟨⟨by decide, by decide, by decide⟩, by decide⟩
  refine ⟨_, rfl, rfl, ?_⟩
  refine ((bubble_deadlock_free (ringOf 2 1) hint (by decide) (by decide)
    (packetThen 2 (List.replicate 8 0)) ?_ _ rfl).2.2 rfl 1 (by decide)).2
  refine List.forall_mem_cons.2 ⟨⟨by decide, by decide, by decide⟩, fun l hl => ?_⟩
  obtain ⟨i, -, rfl⟩ := List.mem_map.1 hl
  trivial

/-- A ring of three nodes with chunks of `2 ^ 29` bytes and buffers of `2 ^ 31 - 1`. -/
def wideRing : Param := ⟨[3], 2 ^ 31 - 1, 2 ^ 29, 0, 0, 0, 0⟩

/-- Each node sends a packet of three chunks to the next one, and they are put on the links. -/
def allSend : List TorusLabel :=
  let env : Env := ⟨0, fun _ => 0, fun _ => 0, 0⟩
  ([(0, 1), (1, 2), (2, 0)].map fun x => .inject x.1
    (.generate { (default : Msg) with destLp := x.2, packetSize := 3 * 2 ^ 29 }) env) ++
    [0, 0, 0, 1, 2, 3, 4, 5, 6].map fun i => .deliver i env

/-- The sum that is compared with the size of a buffer overflows at the third chunk, which takes
the last slot: no channel of the ring has a free one. -/
theorem wideRing_no_bubble : ∃ net,
    (system wideRing).machine.run initNet allSend = some net ∧
    (∀ l ∈ allSend, Admissible wideRing l) ∧ 2 * wideRing.chunkSize ≤ wideRing.bufferSize ∧
    ∀ n < numNodes wideRing.dimLength,
      wideRing.bufferSize < wideRing.chunkSize * (held wideRing (n, queueOf 0 1) net + 1) := by
  have hheld : ((system wideRing).machine.run initNet allSend).map (fun net =>
      (List.range 3).map fun n => held wideRing (n, queueOf 0 1) net) = some [3, 3, 3] := by
    decide +kernel
  obtain ⟨net, hrun, hheld⟩ := Option.map_eq_some_iff.1 hheld
  simp only [List.range_succ, List.range_zero, List.nil_append, List.cons_append, List.map_cons,
    List.map_nil, List.cons.injEq, and_true] at hheld
  obtain ⟨h0, h1, h2⟩ := hheld
  refine ⟨net, hrun, ?_, by decide, fun n hn => ?_⟩
  · simp [allSend, Admissible, numNodes, wideRing]
  · change n < 3 at hn
    interval_cases n
    · rw [h0]
      decide
    · rw [h1]
      decide
    · rw [h2]
      decide

end CodesSim.Torus
