import CodesSim.Torus.Credits
import CodesSim.Lib.Bubble
import Mathlib.Tactic.Linarith

/-!
# The torus network has no deadlock

The nodes of a torus and the events in flight form a network of LPs (`system`), into which packets
are injected at any time.  `Inv` holds in every reachable state: a buffer counts the slots that are
held and the credits on their way, a loop flag counts the `SEND` events in flight, and on every
ring there is a channel with a free slot.  So when no event is in flight nothing waits and
everything has been delivered (`bubble_deadlock_free`).
-/

namespace CodesSim.Torus

/-- What holds in every reachable state. -/
structure Inv (p : Param) (net : TorusNet) : Prop extends Conserved p net where
  ring : ∀ n q, ∃ i, held p ((ringNext p q)^[i] n, q) net < p.bufferSize / p.chunkSize

variable {p : Param} {net net' : TorusNet} {l : TorusLabel} {env : Env} {d : ℕ} {e : Event}
    {s' : Node}
  {outs rest : List (ℕ × Event)}

theorem exists_iterate_ringNext (hint : p.Ints) (q : ℕ) {u : ℕ}
    (hu : u < numNodes p.dimLength) : ∃ j, (ringNext p q)^[j] (ringNext p q u) = u := by
  have hround := iterate_neighbour hint.toLengths hu (q / 2) (q % 2)
  have hlen := one_le_getD hint.one_le (q / 2)
  refine ⟨p.dimLength.getD (q / 2) 1 - 1, ?_⟩
  rw [← Function.iterate_succ_apply, Nat.succ_eq_add_one, Nat.sub_add_cancel hlen]
  exact hround

variable {n : ℕ}

theorem Inv.held_mul_le (hinv : Inv p net) (q : ℕ) (hn : n < numNodes p.dimLength) :
    (p.chunkSize * held p (n, q) net : ℤ) ≤ (net.nodes n).buffer q := by
  rw [hinv.slots n q hn]
  have : (0 : ℤ) ≤ p.chunkSize * credits (n, q) net := by positivity
  linarith

/-- A channel does not hold more slots than it has. -/
theorem Inv.held_le (hinv : Inv p net) (hchunk : 0 < p.chunkSize) (q : ℕ)
    (hn : n < numNodes p.dimLength) : held p (n, q) net ≤ p.bufferSize / p.chunkSize := by
  have h1 : (net.nodes n).buffer q ≤ p.bufferSize := (hinv.lanes n q).buffer_le
  have h2 := (hinv.held_mul_le q hn).trans h1
  rw [Nat.le_div_iff_mul_le hchunk, Nat.mul_comm]
  exact_mod_cast h2

theorem free_iff (hchunk : 0 < p.chunkSize) {k : ℕ} :
    k < p.bufferSize / p.chunkSize ↔ p.chunkSize * (k + 1) ≤ p.bufferSize := by
  rw [Nat.lt_iff_add_one_le, Nat.le_div_iff_mul_le hchunk, Nat.mul_comm]

theorem Takes.ring (h : Takes p net net' l env d e s' outs rest)
    (hint : p.Ints) (hchunk : 0 < p.chunkSize) (hinv : Inv p net)
    {enter leave : Option (ℕ × ℕ)} (ht : Transfer p net net' d e enter leave) (n q : ℕ) :
    ∃ i, held p ((ringNext p q)^[i] n, q) net' < p.bufferSize / p.chunkSize := by
  refine Bubble.free_step (fun n => held p (n, q) net) (fun n => held p (n, q) net') ?_
    (hinv.ring n q)
  by_cases hent : ∃ m, enter = some (m, q)
  · obtain ⟨m, hent⟩ := hent
    obtain ⟨rfl, hroom⟩ := ht.room _ hent
    have hother : ∀ n, n ≠ m → held p (n, q) net' ≤ held p (n, q) net := by
      intro n hn
      have := ht.held (n, q)
      rw [hent, slot_some, if_neg (by simp [Ne.symm hn])] at this
      omega
    rcases hroom with hroom | ⟨u, hu, hleave, hm⟩
    · -- the chunk has left a slot free in the channel it has entered
      refine .inr ⟨m, hother, 0, ?_⟩
      have hslots := h.slots hinv.toConserved ht m q h.eventOk.1
      have hcredits : (0 : ℤ) ≤ p.chunkSize * credits (m, q) net' := by positivity
      rw [hslots] at hroom
      refine (free_iff hchunk).2 ?_
      have : (p.chunkSize * (held p (m, q) net' + 1) : ℤ) ≤ p.bufferSize := by linarith
      exact_mod_cast this
    · by_cases hum : u = m
      · -- a ring of one node: nothing has changed
        refine .inl fun n => ?_
        by_cases hn : n = m
        · have := ht.held (m, q)
          rw [hent, hleave, hum, slot_some, if_pos rfl] at this
          rw [hn]
          omega
        · exact hother n hn
      · -- the chunk has left a slot free in the channel it has come from
        obtain ⟨j, hj⟩ := exists_iterate_ringNext hint q hu
        refine .inr ⟨m, hother, j, ?_⟩
        have hu' := ht.held (u, q)
        rw [hent, hleave, slot_some, slot_some, if_pos rfl, if_neg (by simp [Ne.symm hum])] at hu'
        have hle := hinv.held_le hchunk q hu
        rw [show (ringNext p q)^[j] m = u by rw [← hj]; exact congrArg _ hm]
        omega
  · refine .inl fun n => ?_
    have := ht.held (n, q)
    rw [slot, slot, if_neg fun hn => hent ⟨n, hn⟩] at this
    omega

/-! ### Reachable states -/

theorem inv_init (hchunk : 0 < p.chunkSize) (hbuf : 2 * p.chunkSize ≤ p.bufferSize) :
    Inv p initNet where
  toConserved := conserved_init p
  ring n q := by
    refine ⟨0, ?_⟩
    rw [held_init, free_iff hchunk]
    omega

theorem Takes.inv (h : Takes p net net' l env d e s' outs rest)
    (hint : p.Ints) (hchunk : 0 < p.chunkSize) (hinv : Inv p net) :
    Inv p net' := by
  obtain ⟨enter, leave, ht⟩ := h.transfer hint hinv.toConserved
  exact ⟨h.conserved hint hinv.toConserved, h.ring hint hchunk hinv ht⟩

/-! ### States with nothing in flight -/

section Quiescent

variable (hinv : Inv p net) (hnone : net.inFlight = [])

include hinv hnone

theorem quiescent_loop (n q : ℕ) : ((net.nodes n).lane q).loop = 0 := by
  have := hinv.count n q
  rw [hnone] at this
  exact this

theorem quiescent_pending (n q : ℕ) : ((net.nodes n).lane q).pending = [] := by
  by_contra hp
  exact (hinv.lanes n q).pending_loop hp (quiescent_loop hinv hnone n q)

theorem quiescent_buffer (hn : n < numNodes p.dimLength) (q : ℕ) :
    ((net.nodes n).lane q).buffer = p.chunkSize * held p (n, q) net := by
  have h1 := hinv.slots n q hn
  have h2 : credits (n, q) net = 0 := by
    rw [credits, hnone]
    rfl
  rw [h2, Nat.cast_zero, add_zero] at h1
  exact h1

theorem quiescent_held {ch : ℕ × ℕ} (h : 0 < held p ch net) :
    ∃ n < numNodes p.dimLength, ∃ q, ∃ c,
      (c ∈ ((net.nodes n).lane q).queued ∨ c ∈ ((net.nodes n).lane q).other) ∧
        c.holds ch = true := by
  rw [held, hnone, LpSystem.flightSum_nil, Nat.add_zero, LpSystem.nodeSum] at h
  obtain ⟨n, hn, h⟩ := Finset.exists_ne_zero_of_sum_ne_zero h.ne'
  obtain ⟨q, hq, h⟩ := Finset.exists_ne_zero_of_sum_ne_zero h
  have hn := Finset.mem_range.1 hn
  refine ⟨n, hn, q, ?_⟩
  rw [Lane.held, quiescent_pending hinv hnone n q] at h
  by_cases hqueued : ((net.nodes n).lane q).queued.countP (·.holds ch) = 0
  · have hother : 0 < ((net.nodes n).lane q).other.countP (·.holds ch) := by
      simp only [List.length_nil, ite_self] at h
      omega
    obtain ⟨c, hc, hholds⟩ := List.countP_pos_iff.1 hother
    exact ⟨c, .inr hc, hholds⟩
  · obtain ⟨c, hc, hholds⟩ := List.countP_pos_iff.1 (Nat.pos_of_ne_zero hqueued)
    exact ⟨c, .inl hc, hholds⟩

omit hnone in
/-- A chunk that waits holds a slot. -/
theorem held_pos {q : ℕ} (hn : n < numNodes p.dimLength) {c : Msg} {k : ℕ}
    (hc : c ∈ ((net.nodes n).lane q).queued ∨ c ∈ ((net.nodes n).lane q).other)
    (hsaved : c.savedQueue = k) : 0 < held p (c.senderNode, k) net := by
  have hq : q < 2 * p.dimLength.length := by
    rcases hc with hc | hc
    · exact ((hinv.lanes n q).queued c hc).1.queue_lt
    · exact ((hinv.lanes n q).other c hc).1.queue_lt
  have hholds : c.holds (c.senderNode, k) = true := by
    rw [Msg.holds_iff hsaved]
    simp
  have hlane : 0 < ((net.nodes n).lane q).held (c.senderNode, k) n q := by
    rw [Lane.held]
    rcases hc with hc | hc
    · have := List.countP_pos_iff (p := (·.holds (c.senderNode, k))).2 ⟨c, hc, hholds⟩
      omega
    · have := List.countP_pos_iff (p := (·.holds (c.senderNode, k))).2 ⟨c, hc, hholds⟩
      omega
  have hnode : ((net.nodes n).lane q).held (c.senderNode, k) n q ≤
      ∑ q ∈ Finset.range (2 * p.dimLength.length),
        ((net.nodes n).lane q).held (c.senderNode, k) n q :=
    Finset.single_le_sum (f := fun q => ((net.nodes n).lane q).held (c.senderNode, k) n q)
      (fun _ _ => Nat.zero_le _) (Finset.mem_range.2 hq)
  have hnet : (∑ q ∈ Finset.range (2 * p.dimLength.length),
        ((net.nodes n).lane q).held (c.senderNode, k) n q) ≤ held p (c.senderNode, k) net :=
    (LpSystem.le_nodeSum (fun n (node : Node) => ∑ q ∈ Finset.range (2 * p.dimLength.length),
        (node.lane q).held (c.senderNode, k) n q) (Finset.mem_range.2 hn) net).trans
      (Nat.le_add_right _ _)
  omega

/-- A channel that holds a slot waits for a full channel of its ring, or for one of a later
dimension that is not empty. -/
theorem quiescent_stuck (hchunk : 0 < p.chunkSize) (hbuf : 2 * p.chunkSize ≤ p.bufferSize)
    {q : ℕ} (h : 0 < held p (n, q) net) :
    q / 2 < p.dimLength.length ∧
      (held p (ringNext p q n, q) net = p.bufferSize / p.chunkSize ∨
        ∃ q', q / 2 < q' / 2 ∧ 0 < held p (ringNext p q n, q') net) := by
  obtain ⟨m, hm, q', c, hc, hholds⟩ := quiescent_held hinv hnone h
  obtain ⟨hsender, hsaved⟩ : c.senderNode = n ∧ c.savedQueue = q := by
    simpa [Msg.holds] using hholds
  have hbuffer := quiescent_buffer hinv hnone hm q'
  rcases hc with hc | hc
  · obtain ⟨hat, hsaved', hby⟩ := (hinv.lanes m q').queued c hc
    obtain rfl : q = q' := by exact_mod_cast hsaved.symm.trans hsaved'
    have hdim := dor_lt hby.dor
    have hqd : q / 2 = c.sourceDim ∧ q % 2 = c.sourceDirection := by
      rw [← hat.queue]
      exact ⟨queueOf_div hdim.2, queueOf_mod hdim.2⟩
    have hnext : ringNext p q n = m := by
      rw [ringNext, hqd.1, hqd.2, ← hsender]
      exact hby.here.symm
    refine ⟨by rw [hqd.1]; exact hdim.1, .inl ?_⟩
    have hfull := (hinv.lanes m q).queued_full (List.ne_nil_of_mem hc)
    rw [hbuffer] at hfull
    rw [hnext]
    refine le_antisymm (hinv.held_le hchunk q hm) (not_lt.1 fun hlt => ?_)
    have := (free_iff hchunk).1 hlt
    have : (p.chunkSize * (held p (m, q) net + 1) : ℤ) ≤ p.bufferSize := by exact_mod_cast this
    linarith
  · obtain ⟨hat, dim, dir, hlt, hsaved', hby⟩ := (hinv.lanes m q').other c hc
    obtain rfl : q = queueOf dim dir := by exact_mod_cast hsaved.symm.trans hsaved'
    have hdim := dor_lt hby.dor
    have hnext : ringNext p (queueOf dim dir) n = m := by
      rw [ringNext, queueOf_div hdim.2, queueOf_mod hdim.2, ← hsender]
      exact hby.here.symm
    refine ⟨by rw [queueOf_div hdim.2]; exact hdim.1, .inr ⟨q', ?_, ?_⟩⟩
    · rw [queueOf_div hdim.2, ← hat.queue, Msg.queue, queueOf_div (dor_lt hat.routed.dor).2]
      exact hlt
    · have hfull := (hinv.lanes m q').other_full (List.ne_nil_of_mem hc)
      rw [hbuffer] at hfull
      rw [hnext]
      by_contra h0
      have h0 : held p (m, q') net = 0 := by omega
      rw [h0, Nat.cast_zero, mul_zero] at hfull
      omega

/-- **No deadlock.**  When no event is in flight, nothing waits. -/
theorem quiescent_empty (hchunk : 0 < p.chunkSize) (hbuf : 2 * p.chunkSize ≤ p.bufferSize)
    (hn : n < numNodes p.dimLength) (q : ℕ) : (net.nodes n).terminalMsgs q = [] ∧
      (net.nodes n).pendingMsgs q = [] ∧ (net.nodes n).queuedMsgs q = [] ∧
      (net.nodes n).otherMsgs q = [] := by
  have hheld : ∀ n q, held p (n, q) net = 0 :=
    Bubble.held_eq_zero (fun n q => ringNext p q n) (fun q => q / 2)
      (fun n q => held p (n, q) net) (Nat.div_pos (by omega) hchunk)
      (fun n q h => (quiescent_stuck hinv hnone hchunk hbuf h).1)
      (fun n q h => (quiescent_stuck hinv hnone hchunk hbuf h).2) hinv.ring
  have hwait : ∀ c, (c ∈ ((net.nodes n).lane q).queued ∨ c ∈ ((net.nodes n).lane q).other) →
      ∃ k : ℕ, c.savedQueue = k := by
    rintro c (hc | hc)
    · exact ⟨q, ((hinv.lanes n q).queued c hc).2.1⟩
    · obtain ⟨-, dim, dir, -, hsaved, -⟩ := (hinv.lanes n q).other c hc
      exact ⟨_, hsaved⟩
  have hempty : ∀ c, ¬ (c ∈ ((net.nodes n).lane q).queued ∨ c ∈ ((net.nodes n).lane q).other) := by
    intro c hc
    obtain ⟨k, hsaved⟩ := hwait c hc
    exact (held_pos hinv hn hc hsaved).ne' (hheld _ _)
  refine ⟨?_, quiescent_pending hinv hnone n q, ?_, ?_⟩
  · by_contra ht
    have h1 := (hinv.lanes n q).terminal_full ht (quiescent_loop hinv hnone n q)
    rw [quiescent_buffer hinv hnone hn q, hheld, Nat.cast_zero, mul_zero] at h1
    omega
  · exact List.eq_nil_iff_forall_not_mem.2 fun c hc => hempty c (.inl hc)
  · exact List.eq_nil_iff_forall_not_mem.2 fun c hc => hempty c (.inr hc)

end Quiescent

end CodesSim.Torus
