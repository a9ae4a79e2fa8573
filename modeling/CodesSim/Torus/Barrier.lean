import CodesSim.Torus.Collective

/-!
# The barrier of the torus

Runs of a collective operation (`collective`): the starts, reports and releases are delivered in any
order.  The operation is meant to be a barrier, and it is one for the leaves only: an inner node
reports when its children have reported, whether it was started or not, and the server it then
releases is the one of the last operation.

* `Follows.step` : a delivery is the next thing that happens to the two waves on the tree;
* `barrier_iff` : when a run keeps the barrier;
* `lateRoot_not_barrier` : a root that is started last releases a server of the past.
-/

namespace CodesSim.Torus

open CodesSim.RootedTree (Tag Wave)

section Steps

variable {p : FullParam} {T : RootedTree ℕ} {init : ℕ → Msg} {k : ℕ} {J : Prop} {w : Wave ℕ}
  {hN : 0 < numNodes p.dimLength} {net net' : CollectiveNet}

/-! ### Runs -/

variable (p) in
/-- A delivery brings the root the last report. -/
def LastReport (net : CollectiveNet) (l : Delivery) (msg : Msg) : Prop :=
  net.inFlight[l.pos]? = some (0, .collectiveFanIn msg) ∧ Complete p 0 (net.nodes 0).toNodeState

variable {l : Delivery}

theorem Follows.step (h2 : 2 ≤ numNodes p.dimLength)
    (h : Follows (tree (numNodes p.dimLength) hN) init k J w net)
    (hs : (collective p).step net l = some net') :
    ∃ t k' J', (tree (numNodes p.dimLength) hN).Pending w t ∧
      Follows (tree (numNodes p.dimLength) hN) init k' J' (w.deliver t) net' ∧
      ((k' = k ∧ J' = J ∧ (∀ msg, ¬ LastReport p net l msg) ∧
          ((tree (numNodes p.dimLength) hN).Ready (w.deliver t) 0 →
            (tree (numNodes p.dimLength) hN).Ready w 0)) ∨
        ∃ msg, LastReport p net l msg ∧ k' = msg.remoteEventSizeBytes ∧
          (J' = ∀ n < numNodes p.dimLength, n ∈ w.joined) ∧
          (tree (numNodes p.dimLength) hN).Ready (w.deliver t) 0 ∧
          ¬ (tree (numNodes p.dimLength) hN).Ready w 0 ∧ (w.deliver t).joined = w.joined) := by
  have hs' : (collectiveSystem p).machine.step net (.deliver l.pos (l.env, l.saved)) = some net' :=
    hs
  obtain ⟨ω, d, e, m', outs, rest, hh, hevent, hcase⟩ := LpSystem.step_handles hs'
  obtain ⟨hl, -⟩ | ⟨-, hperm⟩ := hcase
  · cases hl
  have hget : net.inFlight[l.pos]? = some (d, e) := hevent
  have hroot : myChildren p 0 ≠ [] := List.ne_nil_of_mem (mem_children_iff.2 ⟨h2, rfl⟩ : 1 ∈ _)
  cases e with
  | packet e =>
    exact (h.flight.carried (d, .packet e) (hperm.mem_iff.2 List.mem_cons_self)).elim
  | collectiveInit msg =>
    refine ⟨_, k, J, h.flight.pending hperm rfl, h.collectiveInit h2 hh hperm,
      .inl ⟨rfl, rfl, fun msg' hlast => ?_, fun hready => ?_⟩⟩
    · cases hget.symm.trans hlast.1
    · obtain hw | ⟨he, rfl⟩ := RootedTree.ready_deliver_join.1 hready
      · exact hw
      · exact absurd (treeChildren_eq_empty.1 he) hroot
  | collectiveFanOut msg =>
    refine ⟨_, k, J, h.flight.pending hperm rfl, h.collectiveFanOut hh hperm,
      .inl ⟨rfl, rfl, fun msg' hlast => ?_, id⟩⟩
    cases hget.symm.trans hlast.1
  | collectiveFanIn msg =>
    obtain ⟨ht, -, -, hnotready⟩ := h.reported hperm
    refine ⟨_, _, _, ht, h.collectiveFanIn hh hperm rfl rfl, ?_⟩
    have hready := h.ready_root_iff hperm
    by_cases hc : Complete p d (net.nodes d).toNodeState ∧ d = 0
    · obtain ⟨hc, rfl⟩ := hc
      exact .inr ⟨msg, ⟨hget, hc⟩, if_pos ⟨hc, rfl⟩, if_pos ⟨hc, rfl⟩, hready.2 (.inr ⟨hc, rfl⟩),
        hnotready, rfl⟩
    · refine .inl ⟨if_neg hc, if_neg hc, fun msg' hlast => ?_,
        fun hr => (hready.1 hr).resolve_right hc⟩
      cases hget.symm.trans hlast.1
      exact hc ⟨hlast.2, rfl⟩

theorem Follows.progress (h2 : 2 ≤ numNodes p.dimLength)
    (h : Follows (tree (numNodes p.dimLength) hN) init k J w net)
    (hl : l.pos < net.inFlight.length) : ∃ net', (collective p).step net l = some net' := by
  obtain ⟨⟨d, e⟩, hget⟩ : ∃ x, net.inFlight[l.pos]? = some x := ⟨_, List.getElem?_eq_getElem hl⟩
  have hmem : (d, e) ∈ net.inFlight := List.mem_of_getElem? hget
  have hhandle : ∃ x, (collectiveSystem p).handle (l.env, l.saved) d (net.nodes d) e = some x := by
    cases e with
    | packet e => exact (h.flight.carried _ hmem).elim
    | collectiveFanIn msg => exact ⟨_, rfl⟩
    | collectiveFanOut msg => exact ⟨_, rfl⟩
    | collectiveInit msg =>
      have hroot : myChildren p 0 ≠ [] := List.ne_nil_of_mem (mem_children_iff.2 ⟨h2, rfl⟩ : 1 ∈ _)
      simp only [collectiveSystem, eventHandler, collectiveInitFwd]
      by_cases hleaf : myChildren p d = []
      · have hd : d ≠ 0 := by
          rintro rfl
          exact hroot hleaf
        rw [if_pos hleaf, parent_eq_some.2 ⟨hd, rfl⟩]
        exact ⟨_, rfl⟩
      · rw [if_neg hleaf]
        exact ⟨_, rfl⟩
  obtain ⟨x, hx⟩ := hhandle
  refine ⟨⟨Function.update net.nodes d x.1, net.inFlight.eraseIdx l.pos ++ x.2⟩, ?_⟩
  change (net.inFlight[l.pos]?).bind _ = _
  rw [hget, Option.bind_some, LpSystem.process, hx, Option.map_some]

theorem Follows.start {nodes : ℕ → NodeState}
    (hfan : ∀ n < numNodes p.dimLength, (nodes n).numFanNodes = 0) :
    Follows (tree (numNodes p.dimLength) hN) init k J Wave.start
      (collectiveStart p nodes init) := by
  have htags : (collectiveStart p nodes init).inFlight.map tagOf =
      (List.range (numNodes p.dimLength)).map fun n => some (.join n) := by
    rw [collectiveStart, List.map_map]
    rfl
  refine ⟨RootedTree.Sound.start, ⟨?_, fun t => ?_, fun x hx => ?_⟩, fun n hn => ⟨?_, fun hj => ?_,
    fun _ => rfl, fun _ ho => absurd ho RootedTree.not_out_start⟩,
    fun _ hr => absurd hr RootedTree.not_ready_start⟩
  · rw [htags]
    refine List.nodup_range.map fun a b hab => ?_
    exact Tag.join.inj (Option.some.inj hab)
  · rw [htags, RootedTree.pending_start, List.mem_map]
    exact exists_congr fun n => by rw [List.mem_range, mem_tree, Option.some_inj, eq_comm]
  · obtain ⟨n, -, rfl⟩ := List.mem_map.1 hx
    rfl
  · rw [RootedTree.count_start]
    exact hfan n (mem_tree.1 hn)
  · exact absurd hj (Finset.notMem_empty n)

variable {ls : List Delivery}

theorem Follows.run (h2 : 2 ≤ numNodes p.dimLength)
    (h : Follows (tree (numNodes p.dimLength) hN) init k J w net)
    (hrun : (collective p).run net ls = some net') :
    ∃ k' J' w', Follows (tree (numNodes p.dimLength) hN) init k' J' w' net' ∧
      w'.weight = w.weight + ls.length := by
  induction ls generalizing net k J w with
  | nil =>
    cases hrun
    exact ⟨k, J, w, h, rfl⟩
  | cons l ls ih =>
    obtain ⟨net₁, hs, hrun⟩ := Machine.run_cons_eq_some.1 hrun
    obtain ⟨t, k₁, J₁, ht, hnext, -⟩ := h.step h2 hs
    obtain ⟨k', J', w', hend, hweight⟩ := ih hnext hrun
    refine ⟨k', J', w', hend, ?_⟩
    rw [hweight, RootedTree.weight_deliver ht, List.length_cons]
    omega

/-! ### The barrier -/

/-- The start of a node is not in flight any more. -/
def Started (net : CollectiveNet) (n : ℕ) : Prop :=
  ∀ msg, (n, NodeEvent.collectiveInit msg) ∉ net.inFlight

theorem Follows.started_iff {n : ℕ} (h : Follows (tree (numNodes p.dimLength) hN) init k J w net)
    (hn : n < numNodes p.dimLength) : Started net n ↔ n ∈ w.joined := by
  have hpending := h.flight.mem (.join n)
  constructor
  · intro hs
    by_contra hj
    obtain ⟨⟨d, e⟩, hx, htag⟩ := List.mem_map.1 (hpending.2 ⟨mem_tree.2 hn, hj⟩)
    cases e with
    | collectiveInit msg =>
      cases htag
      exact hs msg hx
    | _ => cases htag
  · intro hj msg hmem
    exact (hpending.1 (List.mem_map_of_mem hmem)).2 hj

variable (p) in
/-- **The barrier** in one state: no server is released before every node was started, and a node
releases its own server, once. -/
structure Orderly (init : ℕ → Msg) (net : CollectiveNet) : Prop where
  barrier : ∀ n < numNodes p.dimLength, (net.nodes n).released ≠ [] →
    ∀ m < numNodes p.dimLength, Started net m
  once : ∀ n < numNodes p.dimLength,
    (net.nodes n).released = [] ∨ (net.nodes n).released = [(init n).senderSvr]

variable (p) in
/-- The end of an operation: every server is released, and the counters are ready for the next
operation. -/
def Finished (init : ℕ → Msg) (net : CollectiveNet) : Prop :=
  ∀ n < numNodes p.dimLength, (net.nodes n).released = [(init n).senderSvr] ∧
    (net.nodes n).numFanNodes = 0

variable (p) in
/-- A run keeps the barrier in all of its states, and at its end, when nothing is in flight any
more, the operation is over. -/
def Barrier (nodes : ℕ → NodeState) (init : ℕ → Msg) (ls : List Delivery) (net : CollectiveNet) :
    Prop :=
  (collective p).Along (Orderly p init) (collectiveStart p nodes init) ls ∧
    (net.inFlight = [] → Finished p init net)

variable (p) in
/-- **The condition.**  When the root gets its last report, every node with children was started
too, and the report carries a remote event to be sent to the servers. -/
def Prepared (net : CollectiveNet) (l : Delivery) : Prop :=
  ∀ msg, LastReport p net l msg → msg.remoteEventSizeBytes ≠ 0 ∧
    ∀ n < numNodes p.dimLength, myChildren p n ≠ [] → Started net n

section

variable (h : Follows (tree (numNodes p.dimLength) hN) init k J w net)
include h

theorem Follows.orderly
    (hkept : (tree (numNodes p.dimLength) hN).Ready w 0 → k ≠ 0 ∧ J) : Orderly p init net := by
  refine ⟨fun n hn hreleased m hm => ?_, fun n hn => ?_⟩
  · have hout : (tree (numNodes p.dimLength) hN).Out w n := by
      by_contra hout
      exact hreleased ((h.node n (mem_tree.2 hn)).silent (.inr hout))
    have hready := h.sound.ready_root_of_out (mem_tree.2 hn) hout
    exact (h.started_iff hm).2 (h.inTime (hkept hready).2 hready m (mem_tree.2 hm))
  · have hnode := h.node n (mem_tree.2 hn)
    by_cases hout : (tree (numNodes p.dimLength) hN).Out w n
    · obtain ⟨hk, hJ⟩ := hkept (h.sound.ready_root_of_out (mem_tree.2 hn) hout)
      obtain ⟨v, hv, hown⟩ := hnode.once hk hout
      exact .inr (by rw [hv, hown hJ])
    · exact .inl (hnode.silent (.inr hout))

theorem Follows.out_of_empty (hend : net.inFlight = []) : ∀ n < numNodes p.dimLength,
      (tree (numNodes p.dimLength) hN).Ready w n ∧ (tree (numNodes p.dimLength) hN).Out w n := by
  have hquiet : ∀ t, ¬ (tree (numNodes p.dimLength) hN).Pending w t := by
    intro t ht
    have hmem := (h.flight.mem t).2 ht
    rw [hend] at hmem
    cases hmem
  exact fun n hn => (RootedTree.out_of_quiet hquiet n (mem_tree.2 hn)).2

theorem Follows.finished
    (hkept : (tree (numNodes p.dimLength) hN).Ready w 0 → k ≠ 0 ∧ J) (hend : net.inFlight = []) :
    Finished p init net := by
  intro n hn
  obtain ⟨hready, hout⟩ := h.out_of_empty hend n hn
  have hnode := h.node n (mem_tree.2 hn)
  obtain ⟨hk, hJ⟩ := hkept (h.sound.ready_root_of_out (mem_tree.2 hn) hout)
  obtain ⟨v, hv, hown⟩ := hnode.once hk hout
  refine ⟨by rw [hv, hown hJ], ?_⟩
  rw [hnode.counter, RootedTree.count, if_pos hready.1]
  rfl

end

/-- **The condition is enough**, step by step. -/
theorem Follows.step_of_prepared (h2 : 2 ≤ numNodes p.dimLength)
    (h : Follows (tree (numNodes p.dimLength) hN) init k J w net)
    (hkept : (tree (numNodes p.dimLength) hN).Ready w 0 → k ≠ 0 ∧ J) (hp : Prepared p net l)
    (hs : (collective p).step net l = some net') :
    ∃ k' J' w', Follows (tree (numNodes p.dimLength) hN) init k' J' w' net' ∧
      ((tree (numNodes p.dimLength) hN).Ready w' 0 → k' ≠ 0 ∧ J') := by
  obtain ⟨t, k', J', ht, hnext,
    ⟨rfl, rfl, -, hready⟩ | ⟨msg, hlast, rfl, rfl, hready, -, hjoined⟩⟩ :=
    h.step h2 hs
  · exact ⟨k', J', _, hnext, fun hr => hkept (hready hr)⟩
  · obtain ⟨hsize, hinner⟩ := hp msg hlast
    refine ⟨_, _, _, hnext, fun _ => ⟨hsize, fun n hn => ?_⟩⟩
    by_cases hleaf : myChildren p n = []
    · -- the leaves have reported, so they were started
      have hn' := hnext.sound.joined_of_out (RootedTree.root_mem _) (.inl ⟨rfl, hready⟩) n
        (mem_tree.2 hn) (treeChildren_eq_empty.2 hleaf)
      rw [hjoined] at hn'
      exact hn'
    · exact (h.started_iff hn).1 (hinner n hn hleaf)

/-- After the last report without a remote event no server is released. -/
theorem Follows.silent_run (h2 : 2 ≤ numNodes p.dimLength)
    (h : Follows (tree (numNodes p.dimLength) hN) init 0 J w net)
    (hready : (tree (numNodes p.dimLength) hN).Ready w 0)
    (hrun : (collective p).run net ls = some net') : (net'.nodes 0).released = [] := by
  suffices hinv : ∃ w, Follows (tree (numNodes p.dimLength) hN) init 0 J w net' ∧
      (tree (numNodes p.dimLength) hN).Ready w 0 by
    obtain ⟨w', h', -⟩ := hinv
    exact (h'.node 0 (RootedTree.root_mem _)).silent (.inl rfl)
  refine Machine.run_invariant (I := fun net => ∃ w,
    Follows (tree (numNodes p.dimLength) hN) init 0 J w net ∧
      (tree (numNodes p.dimLength) hN).Ready w 0) (P := fun _ => True) ?_ ⟨w, h, hready⟩
    (fun _ _ => trivial) hrun
  rintro s l s' ⟨w, h, hready⟩ - hs
  obtain ⟨t, k', J', ht, hnext, ⟨rfl, rfl, -, -⟩ | ⟨-, -, -, -, -, hnot, -⟩⟩ := h.step h2 hs
  · exact ⟨_, hnext, hready.deliver ht⟩
  · exact absurd hready hnot

/-- **The condition is necessary.** -/
theorem Follows.prepared_of_barrier (h2 : 2 ≤ numNodes p.dimLength)
    (h : Follows (tree (numNodes p.dimLength) hN) init k J w net)
    (halong : (collective p).Along (Orderly p init) net ls) (hfinished : Finished p init net')
    (hrun : (collective p).run net ls = some net') :
    (collective p).Meets (Prepared p) net ls := by
  induction ls generalizing net k J w with
  | nil => exact trivial
  | cons l ls ih =>
    obtain ⟨net₁, hs, hrun⟩ := Machine.run_cons_eq_some.1 hrun
    have halong₁ := halong.2 net₁ hs
    obtain ⟨t, k₁, J₁, ht, hnext, hcases⟩ := h.step h2 hs
    refine ⟨fun msg hlast => ?_, fun s' hs' => ?_⟩
    · obtain ⟨-, -, hnot, -⟩ | ⟨msg', hlast', rfl, -, hready, -, hjoined⟩ := hcases
      · exact absurd hlast (hnot msg)
      cases hlast.1.symm.trans hlast'.1
      have hsize : msg.remoteEventSizeBytes ≠ 0 := by
        intro h0
        rw [h0] at hnext
        have hsilent := hnext.silent_run h2 hready hrun
        rw [(hfinished 0 hN).1] at hsilent
        cases hsilent
      refine ⟨hsize, fun n hn _ => (h.started_iff hn).2 ?_⟩
      -- the root has released its server, so every node was started
      obtain ⟨v, hv, -⟩ := (hnext.node 0 (RootedTree.root_mem _)).once hsize (.inl ⟨rfl, hready⟩)
      have hstarted := halong₁.head.barrier 0 hN (by rw [hv]; exact List.cons_ne_nil _ _) n hn
      rw [← hjoined]
      exact (hnext.started_iff hn).1 hstarted
    · cases hs.symm.trans hs'
      exact ih hnext halong₁ hrun

end Steps

/-- **The collective operation as a barrier.**  The tree spans the nodes; a run has one delivery for
each start, report and release, and goes on until nothing is in flight.  It keeps the barrier if,
and when it is over only if, the nodes with children are started before the root gets its last
report, and that report carries a remote event. -/
theorem barrier_iff (h2 : 2 ≤ numNodes p.dimLength) {nodes : ℕ → NodeState}
    (hfan : ∀ n < numNodes p.dimLength, (nodes n).numFanNodes = 0) (init : ℕ → Msg) :
    (∀ q c, c ∈ children (numNodes p.dimLength) q ↔ c < numNodes p.dimLength ∧ parent c = some q) ∧
    (∀ n < numNodes p.dimLength, Relation.ReflTransGen (fun c q => parent c = some q) n 0) ∧
    ∀ ls net, (collective p).run (collectiveStart p nodes init) ls = some net →
      ls.length ≤ 3 * numNodes p.dimLength - 2 ∧
      (∀ l : Delivery, l.pos < net.inFlight.length → ∃ net',
        (collective p).step net l = some net') ∧
      ((collective p).Meets (Prepared p) (collectiveStart p nodes init) ls →
        Barrier p nodes init ls net) ∧
      (net.inFlight = [] → (Barrier p nodes init ls net ↔
        (collective p).Meets (Prepared p) (collectiveStart p nodes init) ls)) := by
  have hN : 0 < numNodes p.dimLength := by omega
  have hstart : Follows (tree (numNodes p.dimLength) hN) init 0 True Wave.start
      (collectiveStart p nodes init) := Follows.start hfan
  have hkept : (tree (numNodes p.dimLength) hN).Ready Wave.start 0 → (0 : ℕ) ≠ 0 ∧ True :=
    fun hr => absurd hr RootedTree.not_ready_start
  refine ⟨fun q c => mem_children_iff, fun n _ => reaches_root n, fun ls net hrun => ?_⟩
  obtain ⟨k, J, w, hend, hweight⟩ := hstart.run h2 hrun
  have henough : (collective p).Meets (Prepared p) (collectiveStart p nodes init) ls →
      Barrier p nodes init ls net := by
    intro hmeets
    let I : CollectiveNet → Prop := fun net => ∃ k J w,
      Follows (tree (numNodes p.dimLength) hN) init k J w net ∧
        ((tree (numNodes p.dimLength) hN).Ready w 0 → k ≠ 0 ∧ J)
    have hstep : ∀ s l s', I s → Prepared p s l → (collective p).step s l = some s' → I s' := by
      rintro s l s' ⟨k, J, w, h, hkept⟩ hp hs
      exact h.step_of_prepared h2 hkept hp hs
    have hI : I (collectiveStart p nodes init) := ⟨0, True, _, hstart, hkept⟩
    refine ⟨Machine.along_of_meets hstep (fun s ⟨_, _, _, h, hkept⟩ => h.orderly hkept) hI
      hmeets, ?_⟩
    obtain ⟨k, J, w, h, hkept⟩ := Machine.run_invariant_of_meets hstep hI hmeets hrun
    exact h.finished hkept
  refine ⟨?_, fun l hl => hend.progress h2 hl, henough, fun hempty => ⟨fun hb => ?_, henough⟩⟩
  · have hle := hend.sound.weight_le
    rw [hweight, show (tree (numNodes p.dimLength) hN).nodes.card = numNodes p.dimLength from
      Finset.card_range _] at hle
    have h0 : (Wave.start : Wave ℕ).weight = 0 := rfl
    omega
  · exact hstart.prepared_of_barrier h2 hb.1 (hb.2 hempty) hrun

/-! ### A root that starts late -/

/-- A torus of two nodes: node 1 is the only child of node 0. -/
def pairOfNodes : FullParam where
  toParam := ⟨[2], 4, 1, 0, 0, 0, 0⟩
  linkBandwidth := 1
  msgSz := 0

/-- The servers 7 and 8 start an operation with a remote event of one byte. -/
def startedBy (n : ℕ) : Msg :=
  { (default : Msg) with senderSvr := 7 + .ofNat n, remoteEventSizeBytes := 1, eventData := [0] }

def deliverAt (pos : ℕ) : Delivery where
  pos := pos
  env := { toEnv := ⟨0, fun _ => 0, fun _ => 0, 0⟩, exponential := fun _ => 0 }
  saved := default

/-- The child is started and reports, the root releases it, and then the root is started. -/
def lateRoot : List Delivery := [deliverAt 1, deliverAt 1, deliverAt 1, deliverAt 0]

/-- The root is started first. -/
def earlyRoot : List Delivery := [deliverAt 0, deliverAt 0, deliverAt 0, deliverAt 0]

/-- The root releases server 0, which it has in mind from before, while its own start is still in
flight; its server 7 is never released. -/
theorem lateRoot_not_barrier : ∃ net net',
    (collective pairOfNodes).run (collectiveStart pairOfNodes (fun _ => NodeState.init) startedBy)
      (lateRoot.take 2) = some net ∧ (net.nodes 0).released = [0] ∧ ¬ Started net 0 ∧
    (collective pairOfNodes).run (collectiveStart pairOfNodes (fun _ => NodeState.init) startedBy)
      lateRoot = some net' ∧ net'.inFlight = [] ∧ (net'.nodes 0).released = [0] ∧
    ¬ Barrier pairOfNodes (fun _ => NodeState.init) startedBy lateRoot net' := by
  refine ⟨_, _, rfl, rfl, fun hs => ?_, rfl, rfl, rfl, fun hb => ?_⟩
  · exact hs (startedBy 0) List.mem_cons_self
  · have hreleased := (hb.2 rfl 0 (by decide)).1
    revert hreleased
    decide

theorem barrier_iff_earlyRoot : ∃ net,
    (collective pairOfNodes).run (collectiveStart pairOfNodes (fun _ => NodeState.init) startedBy)
      earlyRoot = some net ∧ net.inFlight = [] ∧
    Barrier pairOfNodes (fun _ => NodeState.init) startedBy earlyRoot net := by
  have h := (@barrier_iff pairOfNodes (by decide) (fun _ => NodeState.init) (fun _ _ => rfl)
    startedBy).2.2 earlyRoot _ rfl
  refine ⟨_, rfl, rfl, h.2.2.1 ⟨?_, fun s₁ h₁ => ⟨?_, fun s₂ h₂ => ?_⟩⟩⟩
  · rintro msg ⟨hget, -⟩
    cases hget
  · cases h₁
    rintro msg ⟨hget, -⟩
    cases hget
  · cases h₁
    cases h₂
    refine ⟨?_, fun s₃ h₃ => ?_⟩
    · rintro msg ⟨hget, -⟩
      cases hget
      refine ⟨by decide, fun n _ _ msg hmem => ?_⟩
      cases List.mem_singleton.1 hmem
    · cases h₃
      refine ⟨?_, fun s₄ h₄ => ?_⟩
      · rintro msg ⟨hget, -⟩
        cases hget
      · exact trivial

end CodesSim.Torus
