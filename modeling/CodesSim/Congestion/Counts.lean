import CodesSim.Congestion.Basic

/-!
# The counts of a router

Every node of the tree counts the packets below it, in total, by terminal, by application and by
both.  `Counts` says that a node counts a list of packets, and `Tree.Holding` that every node of a
tree counts the packets of a list that are below it.  The counts are determined by the packets, so
a packet that is counted and taken away again leaves the tree as it was, and they add up at every
level (`Tree.Holding.sums`).
-/

namespace CodesSim.Congestion

open Function

variable {p : RouterParam} {l l' : List (Packet p)} {x : Packet p} {n n' : Node} {t : Tree p}

/-- The bytes of some packets. -/
def bytes (l : List (Packet p)) : ℕ := (l.map Packet.size).sum

@[simp] theorem bytes_cons : bytes (x :: l) = x.size + bytes l := by simp [bytes]

theorem bytes_perm (h : l.Perm l') : bytes l = bytes l' := (h.map _).sum_eq

/-- The node counts the packets of `l`. -/
structure Counts (l : List (Packet p)) (n : Node) : Prop where
  packets : n.packetCount = bytes l
  terms : Tally.Of Packet.term Packet.size l n.termCount
  apps : Tally.Of Packet.app Packet.size l n.appCount
  pairs : Tally.Of₂ Packet.app Packet.term Packet.size l n.appToTerminal

theorem Counts.init (time : STime) : Counts ([] : List (Packet p)) (Node.init time) :=
  ⟨rfl, Tally.Of.nil, Tally.Of.nil, Tally.Of₂.nil⟩

theorem Counts.perm (h : Counts l n) (hl : l.Perm l') : Counts l' n where
  packets := by rw [h.packets, bytes_perm hl]
  terms := h.terms.perm hl
  apps := h.apps.perm hl
  pairs := h.pairs.perm hl

theorem Counts.enqueue (h : Counts l n) (x : Packet p) : Counts (x :: l) (n.enqueue x) where
  packets := by
    rw [Node.enqueue, bytes_cons, ← h.packets]
    exact Nat.add_comm _ _
  terms := h.terms.add x.size_pos
  apps := h.apps.add x.size_pos
  pairs := h.pairs.add x.size_pos

theorem Counts.dequeue (h : Counts (x :: l) n) : Counts l (n.dequeue x) where
  packets := by
    rw [Node.dequeue, h.packets, bytes_cons]
    exact Nat.add_sub_cancel_left _ _
  terms := h.terms.sub
  apps := h.apps.sub
  pairs := h.pairs.sub

theorem Counts.holds (h : Counts l n) (hx : x ∈ l) : n.Holds x := by
  refine ⟨?_, h.pairs.le_count hx⟩
  obtain ⟨l₁, l₂, rfl⟩ := List.append_of_mem hx
  rw [h.packets, bytes_perm List.perm_middle, bytes_cons]
  exact Nat.le_add_right _ _

theorem Counts.unique (h : Counts l n) (h' : Counts l n') :
    n.packetCount = n'.packetCount ∧ n.termCount = n'.termCount ∧ n.appCount = n'.appCount ∧
      n.appToTerminal = n'.appToTerminal :=
  ⟨by rw [h.packets, h'.packets], h.terms.unique h'.terms, h.apps.unique h'.apps,
    h.pairs.unique h'.pairs⟩

/-- What a node counts. -/
def Node.counts (n : Node) :
    ℕ × Std.ExtTreeMap ℕ ℕ × Std.ExtTreeMap ℕ ℕ × Std.ExtTreeMap ℕ (Std.ExtTreeMap ℕ ℕ) :=
  (n.packetCount, n.termCount, n.appCount, n.appToTerminal)

theorem Counts.congr (h : Counts l n) (hn : n'.counts = n.counts) : Counts l n' := by
  obtain ⟨hp, ht, ha, hpair⟩ : _ ∧ _ ∧ _ ∧ _ := by simpa only [Node.counts, Prod.mk.injEq] using hn
  exact ⟨hp ▸ h.packets, ht ▸ h.terms, ha ▸ h.apps, hpair ▸ h.pairs⟩

theorem Counts.dequeue_enqueue (h : Counts l n) (x : Packet p) : (n.enqueue x).dequeue x = n := by
  obtain ⟨hp, ht, ha, hpair⟩ := ((h.enqueue x).dequeue).unique h
  cases n
  simp only [Node.enqueue, Node.dequeue, Node.mk.injEq] at hp ht ha hpair ⊢
  exact ⟨hp, trivial, trivial, trivial, trivial, ht, ha, hpair⟩

/-- A packet that is taken away and counted again leaves no trace. -/
theorem Counts.enqueue_dequeue (h : Counts (x :: l) n) : (n.dequeue x).enqueue x = n := by
  obtain ⟨hp, ht, ha, hpair⟩ := (h.dequeue.enqueue x).unique h
  cases n
  simp only [Node.enqueue, Node.dequeue, Node.mk.injEq] at hp ht ha hpair ⊢
  exact ⟨hp, trivial, trivial, trivial, trivial, ht, ha, hpair⟩

/-! ### The tree -/

/-- The packets of a port. -/
def onPort (i : Fin p.radix) (l : List (Packet p)) : List (Packet p) := l.filter fun x => x.port = i

/-- The packets of a virtual channel. -/
def onVc (v : Fin p.vcPerPort) (l : List (Packet p)) : List (Packet p) := l.filter fun x => x.vc = v

/-- **Every node counts the packets of `l` that are below it.** -/
structure Tree.Holding (t : Tree p) (l : List (Packet p)) : Prop where
  root : Counts l t.toNode
  port : ∀ i, Counts (onPort i l) (t.ports i).toNode
  vc : ∀ i v, Counts (onVc v (onPort i l)) ((t.ports i).vcs v)

theorem Tree.Holding.init (time : STime) (portTime : Fin p.radix → STime)
    (vcTime : Fin p.radix → Fin p.vcPerPort → STime) :
    (Tree.init p time portTime vcTime).Holding [] :=
  ⟨Counts.init time, fun i => Counts.init (portTime i), fun i v => Counts.init (vcTime i v)⟩

theorem Tree.Holding.perm (h : t.Holding l) (hl : l.Perm l') : t.Holding l' :=
  ⟨h.root.perm hl, fun i => (h.port i).perm (hl.filter _),
    fun i v => (h.vc i v).perm ((hl.filter _).filter _)⟩

theorem onPort_cons (i : Fin p.radix) :
    onPort i (x :: l) = if x.port = i then x :: onPort i l else onPort i l := by
  by_cases h : x.port = i <;> simp [onPort, h]

theorem onVc_cons (v : Fin p.vcPerPort) :
    onVc v (x :: l) = if x.vc = v then x :: onVc v l else onVc v l := by
  by_cases h : x.vc = v <;> simp [onVc, h]

theorem Tree.onPath_port (t : Tree p) (x : Packet p) (f : Node → Node) (i : Fin p.radix) :
    ((t.onPath x f).ports i).toNode =
      if x.port = i then f (t.ports i).toNode else (t.ports i).toNode := by
  by_cases h : x.port = i
  · subst h
    simp [Tree.onPath]
  · rw [if_neg h]
    exact congrArg Port.toNode (update_of_ne (Ne.symm h) _ _)

theorem Tree.onPath_vc (t : Tree p) (x : Packet p) (f : Node → Node) (i : Fin p.radix)
    (v : Fin p.vcPerPort) :
    ((t.onPath x f).ports i).vcs v =
      if x.port = i ∧ x.vc = v then f ((t.ports i).vcs v) else (t.ports i).vcs v := by
  by_cases h : x.port = i
  · subst h
    by_cases hv : x.vc = v
    · subst hv
      simp [Tree.onPath]
    · simp [Tree.onPath, hv, update_of_ne (Ne.symm hv)]
  · rw [if_neg fun hx => h hx.1]
    exact congrArg (Port.vcs · v) (update_of_ne (Ne.symm h) _ _)

theorem Tree.Holding.enqueue (h : t.Holding l) (x : Packet p) :
    (t.enqueuePacket x).Holding (x :: l) := by
  refine ⟨h.root.enqueue x, fun i => ?_, fun i v => ?_⟩
  · rw [Tree.enqueuePacket, Tree.onPath_port, onPort_cons]
    split_ifs
    · exact (h.port i).enqueue x
    · exact h.port i
  · rw [Tree.enqueuePacket, Tree.onPath_vc, onPort_cons]
    by_cases hi : x.port = i
    · rw [if_pos hi, onVc_cons]
      by_cases hv : x.vc = v
      · rw [if_pos hv, if_pos (And.intro hi hv)]
        exact (h.vc i v).enqueue x
      · rw [if_neg hv, if_neg fun hx : _ ∧ _ => hv hx.2]
        exact h.vc i v
    · rw [if_neg hi, if_neg fun hx : _ ∧ _ => hi hx.1]
      exact h.vc i v

/-- A packet that is held can be taken away, and then the others are held. -/
theorem Tree.Holding.dequeue (h : t.Holding (x :: l)) :
    t.dequeuePacket x = some (t.onPath x (·.dequeue x)) ∧
      (t.onPath x (·.dequeue x)).Holding l := by
  have hport : x ∈ onPort x.port (x :: l) := by simp [onPort]
  have hvc : x ∈ onVc x.vc (onPort x.port (x :: l)) := by simp [onPort, onVc]
  constructor
  · rw [Tree.dequeuePacket, if_pos]
    exact ⟨h.root.holds List.mem_cons_self, (h.port _).holds hport, (h.vc _ _).holds hvc⟩
  · refine ⟨h.root.dequeue, fun i => ?_, fun i v => ?_⟩
    · have hi := h.port i
      rw [Tree.onPath_port]
      rw [onPort_cons] at hi
      split_ifs with he
      · rw [if_pos he] at hi
        exact hi.dequeue
      · rw [if_neg he] at hi
        exact hi
    · have hi := h.vc i v
      rw [Tree.onPath_vc]
      rw [onPort_cons] at hi
      by_cases he : x.port = i
      · rw [if_pos he, onVc_cons] at hi
        by_cases hv : x.vc = v
        · rw [if_pos ⟨he, hv⟩]
          rw [if_pos hv] at hi
          exact hi.dequeue
        · rw [if_neg fun hx => hv hx.2]
          rw [if_neg hv] at hi
          exact hi
      · rw [if_neg he] at hi
        rw [if_neg fun hx => he hx.1]
        exact hi

theorem Tree.ext_nodes {t' : Tree p} (hroot : t.toNode = t'.toNode)
    (hport : ∀ i, (t.ports i).toNode = (t'.ports i).toNode)
    (hvc : ∀ i v, (t.ports i).vcs v = (t'.ports i).vcs v) : t = t' := by
  obtain ⟨n, ports⟩ := t
  obtain ⟨n', ports'⟩ := t'
  have hports : ports = ports' := by
    funext i
    have hi := hport i
    have hv : (ports i).vcs = (ports' i).vcs := funext (hvc i)
    simp only at hi
    cases hpi : ports i
    cases hpi' : ports' i
    rw [hpi, hpi'] at hi hv
    subst hi hv
    rfl
  subst hports hroot
  rfl

theorem Tree.onPath_onPath (t : Tree p) (x : Packet p) {f g : Node → Node}
    (hroot : g (f t.toNode) = t.toNode)
    (hport : g (f (t.ports x.port).toNode) = (t.ports x.port).toNode)
    (hvc : g (f ((t.ports x.port).vcs x.vc)) = (t.ports x.port).vcs x.vc) :
    (t.onPath x f).onPath x g = t := by
  refine Tree.ext_nodes hroot (fun i => ?_) fun i v => ?_
  · rw [Tree.onPath_port, Tree.onPath_port]
    split_ifs with hi
    · subst hi
      exact hport
    · rfl
  · rw [Tree.onPath_vc, Tree.onPath_vc]
    split_ifs with hi
    · obtain ⟨rfl, rfl⟩ := hi
      exact hvc
    · rfl

/-- **Counting a packet and taking it away leaves the tree as it was.** -/
theorem Tree.Holding.dequeue_enqueue (h : t.Holding l) (x : Packet p) :
    (t.enqueuePacket x).dequeuePacket x = some t := by
  rw [(h.enqueue x).dequeue.1, Tree.enqueuePacket, Tree.onPath_onPath]
  · exact h.root.dequeue_enqueue x
  · exact (h.port _).dequeue_enqueue x
  · exact (h.vc _ _).dequeue_enqueue x

/-- **Taking a packet away and counting it again leaves the tree as it was.** -/
theorem Tree.Holding.enqueue_dequeue (h : t.Holding (x :: l)) :
    (t.onPath x (·.dequeue x)).enqueuePacket x = t := by
  have hport := h.port x.port
  have hvc := h.vc x.port x.vc
  rw [onPort_cons, if_pos rfl] at hport hvc
  rw [onVc_cons, if_pos rfl] at hvc
  exact t.onPath_onPath x h.root.enqueue_dequeue hport.enqueue_dequeue hvc.enqueue_dequeue

/-! ### No failure -/

theorem Counts.app_counted (h : Counts l n) {app c : ℕ} (happ : n.appCount[app]? = some c) :
    n.packetCount ≠ 0 ∧ ∃ terms, n.appToTerminal[app]? = some terms := by
  have hne : Tally.weigh Packet.app Packet.size l app ≠ 0 := by
    rw [← h.apps.count, Tally.count, happ]
    rintro rfl
    exact h.apps.noZero app happ
  obtain ⟨x, hx, rfl⟩ := Tally.exists_of_weigh hne
  obtain ⟨hsize, hterm⟩ := h.holds hx
  have hpos := x.size_pos
  refine ⟨by omega, ?_⟩
  cases ht : n.appToTerminal[x.app]? with
  | none =>
    rw [Tally.inner, ht, Option.getD_none, Tally.count_empty] at hterm
    omega
  | some terms => exact ⟨terms, rfl⟩

theorem Counts.aggressors_isSome {port : Port p} (h : Counts l port.toNode) :
    ∃ agg, aggressors port = some agg := by
  have hall : ∀ es : List (ℕ × ℕ), (∀ e ∈ es, port.appCount[e.1]? = some e.2) →
      ∃ ls, es.mapM (aggressorsOf port) = some ls := by
    intro es hes
    induction es with
    | nil => exact ⟨[], rfl⟩
    | cons e es ih =>
      obtain ⟨ls, hls⟩ := ih fun e' he' => hes e' (List.mem_cons_of_mem _ he')
      obtain ⟨hcount, terms, hterms⟩ := h.app_counted (hes e List.mem_cons_self)
      obtain ⟨l, hl⟩ : ∃ l, aggressorsOf port e = some l := by
        rw [aggressorsOf, if_neg hcount, hterms]
        split_ifs
        · exact ⟨_, rfl⟩
        · exact ⟨_, rfl⟩
      exact ⟨l :: ls, by simp [List.mapM_cons, hl, hls]⟩
  obtain ⟨ls, hls⟩ := hall port.appCount.toList fun e he =>
    Std.ExtTreeMap.mem_toList_iff_getElem?_eq_some.1 he
  exact ⟨_, by rw [aggressors, hls, Option.map_some]⟩

theorem Tree.Holding.congestionCheck_isSome (h : t.Holding l) (now : STime) (i : Fin p.radix)
    (sv : Saved) : ∃ r, congestionCheck t now i sv = some r := by
  rw [congestionCheck]
  split_ifs
  · have hcounts : Counts (onPort i l)
      (((t.setPortCongestionState i true).setNextPossiblePortNormalTime
        i (expireTime p i now)).ports i).toNode := by
      have hport := h.port i
      simp only [Tree.setNextPossiblePortNormalTime, Tree.setPortCongestionState, Tree.setPort,
        update_self]
      exact ⟨hport.packets, hport.terms, hport.apps, hport.pairs⟩
    obtain ⟨agg, hagg⟩ := hcounts.aggressors_isSome
    exact ⟨_, Option.map_eq_some_iff.2 ⟨agg, hagg, rfl⟩⟩
  · exact ⟨_, rfl⟩
  · exact ⟨_, rfl⟩

theorem Tree.Holding.received_isSome (h : t.Holding l) (now : STime) (x : Packet p) (sv : Saved) :
    ∃ r, receivedPacket t now x sv = some r := by
  simp only [receivedPacket]
  split_ifs
  · exact ⟨_, rfl⟩
  · exact ⟨_, rfl⟩
  · exact (h.enqueue x).congestionCheck_isSome now x.port _
  · exact ⟨_, rfl⟩

theorem Tree.forwarded_isSome (h : x.port ∈ p.outputPorts → t.Holding (x :: l)) (now : STime)
    (sv : Saved) : ∃ r, forwardedPacket t now x sv = some r := by
  rw [forwardedPacket]
  split_ifs with hport
  · obtain ⟨hdequeue, hhold⟩ := (h hport).dequeue
    rw [hdequeue, Option.bind_some]
    exact hhold.congestionCheck_isSome now x.port sv
  · exact ⟨_, rfl⟩

/-! ### Sums -/

/-- The counts of a node by terminal, by application and by both add up to its total. -/
structure Node.AddsUp (n : Node) : Prop where
  terms : Tally.total n.termCount = n.packetCount
  apps : Tally.total n.appCount = n.packetCount
  pairs : (n.appToTerminal.toList.map fun e => Tally.total e.2).sum = n.packetCount

/-- No map of a node has an entry zero, and no map of maps an empty one. -/
structure Node.NoZero (n : Node) : Prop where
  terms : Tally.NoZero n.termCount
  apps : Tally.NoZero n.appCount
  pairs : ∀ app : ℕ, n.appToTerminal[app]? ≠ some ∅ ∧ Tally.NoZero (Tally.inner n.appToTerminal app)

theorem Counts.addsUp (h : Counts l n) : n.AddsUp where
  terms := by rw [h.terms.total, h.packets, bytes]
  apps := by rw [h.apps.total, h.packets, bytes]
  pairs := by rw [h.pairs.total, h.packets, bytes]

theorem Counts.noZero (h : Counts l n) : n.NoZero :=
  ⟨h.terms.noZero, h.apps.noZero, fun app => ⟨h.pairs.noEmpty app, (h.pairs.inner app).noZero⟩⟩

theorem sum_bytes_onPort (l : List (Packet p)) : ∑ i, bytes (onPort i l) = bytes l := by
  rw [bytes, ← Tally.sum_weigh Packet.port Packet.size fun x _ => Finset.mem_univ x.port]
  exact Finset.sum_congr rfl fun i _ => Tally.sum_filter _ _ _ _

theorem sum_bytes_onVc (l : List (Packet p)) : ∑ v, bytes (onVc v l) = bytes l := by
  rw [bytes, ← Tally.sum_weigh Packet.vc Packet.size fun x _ => Finset.mem_univ x.vc]
  exact Finset.sum_congr rfl fun v _ => Tally.sum_filter _ _ _ _

/-- **The counting tree**: the count of the router is the sum over its ports, that of a port the sum
over its virtual channels, at every node the maps add up to the count, and no map has an entry
zero. -/
structure Tree.Counting (t : Tree p) : Prop where
  ports : ∑ i, (t.ports i).packetCount = t.packetCount
  vcs : ∀ i, ∑ v, ((t.ports i).vcs v).packetCount = (t.ports i).packetCount
  addsUp : t.AddsUp ∧ ∀ i, (t.ports i).AddsUp ∧ ∀ v, ((t.ports i).vcs v).AddsUp
  noZero : t.NoZero ∧ ∀ i, (t.ports i).NoZero ∧ ∀ v, ((t.ports i).vcs v).NoZero

theorem Tree.Holding.counting (h : t.Holding l) : t.Counting where
  ports := by
    rw [h.root.packets, ← sum_bytes_onPort]
    exact Finset.sum_congr rfl fun i _ => (h.port i).packets
  vcs i := by
    rw [(h.port i).packets, ← sum_bytes_onVc]
    exact Finset.sum_congr rfl fun v _ => (h.vc i v).packets
  addsUp := ⟨h.root.addsUp, fun i => ⟨(h.port i).addsUp, fun v => (h.vc i v).addsUp⟩⟩
  noZero := ⟨h.root.noZero, fun i => ⟨(h.port i).noZero, fun v => (h.vc i v).noZero⟩⟩

end CodesSim.Congestion
