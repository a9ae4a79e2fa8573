import CodesSim.Congestion.Counts
import CodesSim.Congestion.Marks

/-!
# Rollback of the congestion controller

The reverse functions undo the events of a router and of a terminal, with one exception: a packet
that is forwarded can make its port congested, which sets the expiry time of the port, and
`cc_router_forwarded_packet_rc` does not put the time back as `cc_router_received_packet_rc` does.
With thresholds in order this does not happen (`not_recongests`), but a negative decongestion
threshold is converted to a large number, and then a port ceases to be congested while it is above
the other threshold.

`counting_rollback_iff` says that every reachable tree counts what it holds, that no assertion
fails, and that an event is undone exactly if it does not do that.
-/

namespace CodesSim.Congestion

variable {p : RouterParam} {t t' : Tree p} {i : Fin p.radix} {x : Packet p} {now time : STime}
  {sv sv' : Saved} {outs : List Out} {l : List (Packet p)}

/-! ### The congestion check -/

theorem Tree.setPort_congr {f g : Port p → Port p} (h : f (t.ports i) = g (t.ports i)) :
    t.setPort i f = t.setPort i g := by
  rw [Tree.setPort, h, Tree.setPort]

theorem congestionCheck_undone (h : t.Marked) (hcongest : sv.toCongest = false)
    (hdecongest : sv.toDecongest = false)
    (hcheck : congestionCheck t now i sv = some (t', sv', outs)) :
    congestionCheckRc t' i sv' = if Congests t i then
      t.setNextPossiblePortNormalTime i (expireTime p i now) else t := by
  obtain ⟨hc, agg, -, rfl, rfl, -⟩ | ⟨hd, rfl, rfl, -⟩ | ⟨hc, -, rfl, rfl, -⟩ :=
    congestionCheck_cases hcheck
  · -- the marks that were set are taken away; the port had none
    have hempty := h.empty i hc.1
    have hmarks : (t.congested i (expireTime p i now)).setMarks i t.abatedChildCounter (t.marks i) =
        t.congested i (expireTime p i now) := by
      rw [← Tree.congested_marks t i (expireTime p i now)]
      exact Tree.setMarks_self _ _
    have hdisjoint : ∀ term ∈ agg.map Prod.fst, term ∉ t.marks i := by
      intro term _
      rw [hempty]
      exact Std.ExtTreeSet.not_mem_empty
    rw [if_pos hc, congestionCheckRc, if_pos rfl]
    simp only [hdecongest, Bool.false_eq_true, if_false]
    rw [Tree.foldl_unmark, Tree.setMarks_setMarks, Tree.setMarks_counter, Tree.setMarks_marks,
      Tally.subAll_addAll h.noZero, Tally.eraseAll_insertAll hdisjoint, hmarks,
      Tree.setPortCongestionState, Tree.congested, Tree.setPort_setPort]
    refine Tree.setPort_congr ?_
    have hflag := hc.1
    simp only [Function.comp_apply]
    rw [← hflag]
  · -- the marks that were taken away are set again
    have hnot : ¬ Congests t i := fun hc => by
      have hflag := hd.1
      rw [hc.1] at hflag
      cases hflag
    have hcounter : (t.setPortCongestionState i false).abatedChildCounter = t.abatedChildCounter :=
      rfl
    have hback : Tally.insertAll ∅ (t.marks i).toList = t.marks i := by
      have hall := Tally.insertAll_eraseAll (s := t.marks i) (l := (t.marks i).toList)
        fun k hk => Std.ExtTreeSet.mem_toList.1 hk
      rw [Tally.eraseAll_toList] at hall
      exact hall
    have hmarks : (t.setPortCongestionState i false).setMarks i t.abatedChildCounter (t.marks i) =
        t.setPortCongestionState i false := by
      rw [← Tree.setPortCongestionState_marks t i false]
      exact Tree.setMarks_self _ _
    rw [if_neg hnot, congestionCheckRc]
    simp only [hcongest, Bool.false_eq_true, if_false, if_true]
    rw [Tree.foldl_mark, Tree.setMarks_setMarks, Tree.setMarks_counter, Tree.setMarks_marks,
      Tally.addAll_subAll h.noZero (h.count_toList_le i), hback, hmarks,
      Tree.setPortCongestionState, Tree.setPortCongestionState, Tree.setPort_setPort]
    refine Tree.setPort_eq_self ?_
    have hflag := hd.1
    simp only [Function.comp_apply]
    rw [← hflag]
  · rw [if_neg hc, congestionCheckRc]
    simp only [hcongest, hdecongest, Bool.false_eq_true, if_false]

theorem congestionCheck_saved (hcheck : congestionCheck t now i sv = some (t', sv', outs)) :
    sv'.receivedNewWhileCongested = sv.receivedNewWhileCongested ∧
      sv'.savedExpireTime = sv.savedExpireTime := by
  obtain ⟨-, agg, -, -, rfl, -⟩ | ⟨-, -, rfl, -⟩ | ⟨-, -, -, rfl, -⟩ :=
    congestionCheck_cases hcheck <;>
    exact ⟨rfl, rfl⟩

/-! ### Times -/

theorem Tree.setNextPossible_setNextPossible (t : Tree p) (i : Fin p.radix) (a b : STime) :
    (t.setNextPossiblePortNormalTime i a).setNextPossiblePortNormalTime i b =
      t.setNextPossiblePortNormalTime i b := Tree.setPort_setPort ..

theorem Tree.setNextPossible_eq_self (h : time = (t.ports i).nextPossibleNormalTime) :
    t.setNextPossiblePortNormalTime i time = t := by
  subst h
  exact Tree.setPort_eq_self rfl

theorem Tree.setNextPossible_eq_self_iff :
    t.setNextPossiblePortNormalTime i time = t ↔ time = (t.ports i).nextPossibleNormalTime := by
  refine ⟨fun h => ?_, Tree.setNextPossible_eq_self⟩
  have hport := congrArg (fun t : Tree p => (t.ports i).nextPossibleNormalTime) h
  simpa [Tree.setNextPossiblePortNormalTime] using hport

theorem Tree.enqueue_setNextPossible (t : Tree p) (x : Packet p) (time : STime) :
    (t.setNextPossiblePortNormalTime x.port time).enqueuePacket x =
      (t.enqueuePacket x).setNextPossiblePortNormalTime x.port time := by
  simp [Tree.enqueuePacket, Tree.onPath, Tree.setNextPossiblePortNormalTime, Tree.setPort,
    Node.enqueue]

theorem markNew_undone (h : t.Marked) {term : ℕ} (hnot : ¬ t.IsAbatedTerminal term) :
    (((t.markAbatedTerminal i term).setNextPossiblePortNormalTime i time).markUnabatedTerminal i
      term).setNextPossiblePortNormalTime i (t.ports i).nextPossibleNormalTime = t := by
  have hmem : term ∉ t.marks i := by
    intro hm
    have hpos := Tree.markers_pos hm
    have hle := h.markers_le term
    exact hnot (h.isAbated_iff.2 (by omega))
  have hcounter : Tally.sub (Tally.add t.abatedChildCounter term 1) term 1 = t.abatedChildCounter :=
    Tally.sub_add_cancel h.noZero Nat.one_pos
  have hmarks : ((t.marks i).insert term).erase term = t.marks i :=
    Tally.eraseAll_insertAll (s := t.marks i) (l := [term]) (by simpa using hmem)
  have hroot : ({ t.toNode with
      abatedChildCounter := Tally.sub (Tally.add t.abatedChildCounter term 1) term 1 } : Node) =
      t.toNode := by
    rw [hcounter]
  have hport : ((((t.markAbatedTerminal i term).setNextPossiblePortNormalTime i
      time).markUnabatedTerminal i term).setNextPossiblePortNormalTime i
        (t.ports i).nextPossibleNormalTime).ports i = t.ports i := by
    simp only [Tree.setNextPossiblePortNormalTime, Tree.markUnabatedTerminal,
      Tree.markAbatedTerminal, Tree.setPort_self]
    rw [hmarks]
  have hother : ∀ j, j ≠ i → ((((t.markAbatedTerminal i term).setNextPossiblePortNormalTime i
      time).markUnabatedTerminal i term).setNextPossiblePortNormalTime i
        (t.ports i).nextPossibleNormalTime).ports j = t.ports j := by
    intro j hj
    simp only [Tree.setNextPossiblePortNormalTime, Tree.markUnabatedTerminal,
      Tree.markAbatedTerminal, Tree.setPort_of_ne _ _ hj]
  have hports : ∀ j, ((((t.markAbatedTerminal i term).setNextPossiblePortNormalTime i
      time).markUnabatedTerminal i term).setNextPossiblePortNormalTime i
        (t.ports i).nextPossibleNormalTime).ports j = t.ports j := by
    intro j
    by_cases hj : j = i
    · rw [hj, hport]
    · exact hother j hj
  exact Tree.ext_nodes hroot (fun j => by rw [hports j]) fun j v => by rw [hports j]

/-! ### Events of a router -/

/-- **The exception.**  A packet is forwarded and leaves so many bytes behind that its port becomes
congested, with another expiry time. -/
def Recongests (t : Tree p) (now : STime) : RouterEvent p → Prop
  | .received _ => False
  | .forwarded x => x.port ∈ p.outputPorts ∧ (t.ports x.port).isCongested = false ∧
      toUnsigned (congestionSize p x.port) ≤ (t.ports x.port).packetCount - x.size ∧
      expireTime p x.port now ≠ (t.ports x.port).nextPossibleNormalTime

instance (t : Tree p) (now : STime) : (e : RouterEvent p) → Decidable (Recongests t now e)
  | .received _ => inferInstanceAs (Decidable False)
  | .forwarded _ => inferInstanceAs (Decidable (_ ∧ _ ∧ _ ∧ _))

/-- The packets at ports that are watched. -/
def watched (l : List (Packet p)) : List (Packet p) := l.filter fun x => x.port ∈ p.outputPorts

theorem received_undone (h : t.Marked) (hl : t.Holding l)
    (he : routerEvent t now {} (.received x) = some (t', sv', outs)) :
    routerEventRc t' sv' (.received x) = some t := by
  obtain ⟨hport, rfl, -, -⟩ | ⟨hport, t₁, ht₁, hcases⟩ := routerEvent_cases he
  · exact if_neg hport
  have honly := counted_onlyCounts ht₁
  have h₁ := h.congr honly.toSameMarks honly.flags
  cases ht₁
  have hdequeue := hl.dequeue_enqueue x
  have hport' : x.port ∈ p.outputPorts := hport
  rw [routerEventRc, receivedPacketRc, if_pos hport']
  obtain ⟨x', hx, hput⟩ | ⟨sv₁, hcheck, ⟨x', hx, -, rfl⟩ | ⟨x', hx, -⟩⟩ := hcases
  · cases hx
    obtain ⟨hnew, rfl, rfl, -⟩ | ⟨rfl, rfl, -⟩ := hput.cases
    · simp only [congestionCheckRc, Bool.false_eq_true, if_false, if_true]
      rw [markNew_undone h₁ hnew.1, hdequeue]
    · simp only [congestionCheckRc, Bool.false_eq_true, if_false]
      rw [Tree.setNextPossible_setNextPossible, Tree.setNextPossible_eq_self rfl, hdequeue]
  · cases hx
    have hundone := congestionCheck_undone h₁ rfl rfl hcheck
    obtain ⟨hnew, hexpire⟩ := congestionCheck_saved hcheck
    simp only [hnew, hexpire, Bool.false_eq_true, if_false]
    have hundone' : congestionCheckRc t' x.port sv' = if Congests (t.enqueuePacket x) x.port then
        (t.enqueuePacket x).setNextPossiblePortNormalTime x.port (expireTime p x.port now)
        else t.enqueuePacket x := hundone
    rw [hundone']
    split_ifs
    · rw [Tree.setNextPossible_setNextPossible, Tree.setNextPossible_eq_self rfl, hdequeue]
    · rw [Tree.setNextPossible_eq_self rfl, hdequeue]
  · cases hx

theorem forwarded_undone (h : t.Marked) (hl : x.port ∈ p.outputPorts → t.Holding (x :: l))
    (he : routerEvent t now {} (.forwarded x) = some (t', sv', outs)) :
    ∃ t'', routerEventRc t' sv' (.forwarded x) = some t'' ∧
      (t'' = t ↔ ¬ Recongests t now (.forwarded x)) := by
  obtain ⟨hport, rfl, -, -⟩ | ⟨hport, t₁, ht₁, hcases⟩ := routerEvent_cases he
  · exact ⟨t', congrArg some (if_neg hport), iff_of_true rfl fun hr => hport hr.1⟩
  have honly := counted_onlyCounts ht₁
  have h₁ := h.congr honly.toSameMarks honly.flags
  have hhold := hl hport
  obtain rfl : t.onPath x (·.dequeue x) = t₁ := Option.some.inj (hhold.dequeue.1.symm.trans ht₁)
  obtain ⟨x', hx, -⟩ | ⟨sv₁, hcheck, ⟨x', hx, -⟩ | ⟨x', hx, rfl⟩⟩ := hcases
  · cases hx
  · cases hx
  cases hx
  have hundone : congestionCheckRc t' x.port sv' =
      if Congests (t.onPath x (·.dequeue x)) x.port then
        (t.onPath x (·.dequeue x)).setNextPossiblePortNormalTime x.port (expireTime p x.port now)
      else t.onPath x (·.dequeue x) := congestionCheck_undone h₁ rfl rfl hcheck
  have hcongests : Congests (t.onPath x (·.dequeue x)) x.port ↔
      (t.ports x.port).isCongested = false ∧
        toUnsigned (congestionSize p x.port) ≤ (t.ports x.port).packetCount - x.size := by
    have hcount : ((t.onPath x (·.dequeue x)).ports x.port).toNode =
        (t.ports x.port).toNode.dequeue x := by
      rw [Tree.onPath_port, if_pos rfl]
    rw [Congests, hcount]
    rfl
  refine ⟨_, congrArg some (if_pos hport), ?_⟩
  rw [hundone]
  by_cases hc : Congests (t.onPath x (·.dequeue x)) x.port
  · rw [if_pos hc, Tree.enqueue_setNextPossible, hhold.enqueue_dequeue,
      Tree.setNextPossible_eq_self_iff]
    obtain ⟨hflag, hsize⟩ := hcongests.1 hc
    constructor
    · exact fun htime hr => hr.2.2.2 htime
    · intro hr
      by_contra htime
      exact hr ⟨hport, hflag, hsize, htime⟩
  · rw [if_neg hc, hhold.enqueue_dequeue]
    exact iff_of_true rfl fun hr => hc (hcongests.2 ⟨hr.2.1, hr.2.2.1⟩)

/-! ### Runs of a router -/

/-- A router, with the packets it has received and not yet forwarded. -/
structure Router (p : RouterParam) where
  tree : Tree p
  held : List (Packet p)

/-- Only a packet that was received, for its port and its virtual channel, is forwarded. -/
def Admissible (s : Router p) : RouterEvent p → Prop
  | .received _ => True
  | .forwarded x => x ∈ s.held

instance (s : Router p) : (e : RouterEvent p) → Decidable (Admissible s e)
  | .received _ => inferInstanceAs (Decidable True)
  | .forwarded x => inferInstanceAs (Decidable (x ∈ s.held))

/-- The packets that are held after an event. -/
def heldAfter (held : List (Packet p)) : RouterEvent p → List (Packet p)
  | .received x => x :: held
  | .forwarded x => held.erase x

/-- A router that receives and forwards packets.  Each event has a message of its own to save what
it changes. -/
def router (p : RouterParam) : Machine (Router p) (STime × RouterEvent p) where
  step s l := if Admissible s l.2 then
      (routerEvent s.tree l.1 {} l.2).map fun r => ⟨r.1, heldAfter s.held l.2⟩
    else none

/-- A router without packets, with any expiry times. -/
def Router.init (time : STime) (portTime : Fin p.radix → STime)
    (vcTime : Fin p.radix → Fin p.vcPerPort → STime) : Router p :=
  ⟨Tree.init p time portTime vcTime, []⟩

/-- The invariant of a router. -/
structure Router.Inv (s : Router p) : Prop where
  marked : s.tree.Marked
  holding : s.tree.Holding (watched s.held)

/-- Two trees with the same counts. -/
structure Tree.SameCounts (t t' : Tree p) : Prop where
  root : t'.toNode.counts = t.toNode.counts
  port : ∀ i, (t'.ports i).toNode.counts = (t.ports i).toNode.counts
  vcs : ∀ i, (t'.ports i).vcs = (t.ports i).vcs

theorem Tree.SameCounts.trans {t'' : Tree p} (h : t.SameCounts t') (h' : t'.SameCounts t'') :
    t.SameCounts t'' :=
  ⟨h'.root.trans h.root, fun i => (h'.port i).trans (h.port i), fun i => (h'.vcs i).trans (h.vcs i)⟩

theorem Tree.sameCounts_setPort (t : Tree p) (i : Fin p.radix) {f : Port p → Port p}
    (hcounts : ∀ port : Port p, (f port).toNode.counts = port.toNode.counts)
    (hvcs : ∀ port : Port p, (f port).vcs = port.vcs) : t.SameCounts (t.setPort i f) := by
  refine ⟨rfl, fun j => ?_, fun j => ?_⟩
  · by_cases hj : j = i
    · subst hj
      rw [Tree.setPort_self, hcounts]
    · rw [Tree.setPort_of_ne _ _ hj]
  · by_cases hj : j = i
    · subst hj
      rw [Tree.setPort_self, hvcs]
    · rw [Tree.setPort_of_ne _ _ hj]

theorem Tree.sameCounts_setMarks (t : Tree p) (i : Fin p.radix) (c : Std.ExtTreeMap ℕ ℕ)
    (s : Std.ExtTreeSet ℕ) : t.SameCounts (t.setMarks i c s) := by
  have hcounter : t.SameCounts { t with abatedChildCounter := c } :=
    ⟨rfl, fun _ => rfl, fun _ => rfl⟩
  exact hcounter.trans (Tree.sameCounts_setPort _ i (fun _ => rfl) fun _ => rfl)

theorem Tree.Holding.congr (h : t.Holding l) (hs : t.SameCounts t') : t'.Holding l := by
  refine ⟨h.root.congr hs.root, fun i => (h.port i).congr (hs.port i), fun i v => ?_⟩
  rw [hs.vcs]
  exact h.vc i v

variable {e : RouterEvent p}

theorem routerEvent_sameCounts
    (h : routerEvent t now sv e = some (t', sv', outs)) (hport : e.packet.port ∈ p.outputPorts) :
    ∃ t₁, counted t e = some t₁ ∧ t₁.SameCounts t' := by
  obtain ⟨hnot, -⟩ | ⟨-, t₁, ht₁, hcases⟩ := routerEvent_cases h
  · exact absurd hport hnot
  refine ⟨t₁, ht₁, ?_⟩
  obtain ⟨x, -, hput⟩ | ⟨sv₁, hcheck, -⟩ := hcases
  · have htime : ∀ (t : Tree p) i time, t.SameCounts (t.setNextPossiblePortNormalTime i time) :=
      fun t i time => t.sameCounts_setPort i (fun _ => rfl) fun _ => rfl
    obtain ⟨-, rfl, -, -⟩ | ⟨rfl, -, -⟩ := hput.cases
    · exact (t₁.sameCounts_setMarks x.port _ _).trans (htime _ _ _)
    · exact htime _ _ _
  · obtain ⟨-, agg, -, rfl, -, -⟩ | ⟨-, rfl, -, -⟩ | ⟨-, -, rfl, -, -⟩ :=
      congestionCheck_cases hcheck
    · have hflag : t₁.SameCounts (t₁.congested e.packet.port (expireTime p e.packet.port now)) :=
        t₁.sameCounts_setPort _ (fun _ => rfl) fun _ => rfl
      exact hflag.trans (Tree.sameCounts_setMarks _ _ _ _)
    · have hflag : t₁.SameCounts (t₁.setPortCongestionState e.packet.port false) :=
        t₁.sameCounts_setPort _ (fun _ => rfl) fun _ => rfl
      exact hflag.trans (Tree.sameCounts_setMarks _ _ _ _)
    · exact ⟨rfl, fun _ => rfl, fun _ => rfl⟩

theorem watched_cons : watched (x :: l) = if x.port ∈ p.outputPorts then x ::
    watched l else watched l := by
  by_cases h : x.port ∈ p.outputPorts <;> simp [watched, h]

theorem watched_perm (hx : x ∈ l) (hport : x.port ∈ p.outputPorts) :
    (watched l).Perm (x :: watched (l.erase x)) := by
  have hperm : (watched l).Perm (watched (x :: l.erase x)) :=
    (List.perm_cons_erase hx).filter _
  rwa [watched_cons, if_pos hport] at hperm

theorem watched_erase_of_notMem (hport : x.port ∉ p.outputPorts) :
    watched (l.erase x) = watched l := by
  induction l with
  | nil => rfl
  | cons y l ih =>
    by_cases hy : y = x
    · subst hy
      rw [List.erase_cons_head, watched_cons, if_neg hport]
    · rw [List.erase_cons_tail (by simpa using hy), watched_cons, watched_cons, ih]

theorem Router.Inv.holding_of_mem {s : Router p} (h : s.Inv) (hx : x ∈ s.held)
    (hport : x.port ∈ p.outputPorts) : s.tree.Holding (x :: watched (s.held.erase x)) :=
  h.holding.perm (watched_perm hx hport)

/-- **The counts follow the packets.** -/
theorem Router.Inv.step {s s' : Router p} {m : STime × RouterEvent p} (h : s.Inv)
    (hs : (router p).step s m = some s') : s'.Inv := by
  obtain ⟨now, e⟩ := m
  simp only [router] at hs
  split_ifs at hs with hadm
  obtain ⟨⟨t', sv', outs⟩, he, rfl⟩ := Option.map_eq_some_iff.1 hs
  refine ⟨h.marked.routerEvent he, ?_⟩
  by_cases hport : e.packet.port ∈ p.outputPorts
  · obtain ⟨t₁, ht₁, hsame⟩ := routerEvent_sameCounts he hport
    refine Tree.Holding.congr ?_ hsame
    cases e with
    | received x =>
      cases ht₁
      have hheld : watched (heldAfter s.held (.received x)) = x :: watched s.held :=
        watched_cons.trans (if_pos hport)
      rw [hheld]
      exact h.holding.enqueue x
    | forwarded x =>
      obtain ⟨hdequeue, hhold⟩ := (h.holding_of_mem hadm hport).dequeue
      cases hdequeue.symm.trans ht₁
      exact hhold
  · obtain ⟨-, rfl, -, -⟩ | ⟨hin, -⟩ := routerEvent_cases he
    · have hheld : watched (heldAfter s.held e) = watched s.held := by
        cases e with
        | received x => exact watched_cons.trans (if_neg hport)
        | forwarded x => exact watched_erase_of_notMem hport
      change s.tree.Holding (watched (heldAfter s.held e))
      rw [hheld]
      exact h.holding
    · exact absurd hin hport

theorem Router.Inv.init (time : STime) (portTime : Fin p.radix → STime)
    (vcTime : Fin p.radix → Fin p.vcPerPort → STime) : (Router.init time portTime vcTime).Inv :=
  ⟨Tree.Marked.init time portTime vcTime, Tree.Holding.init time portTime vcTime⟩

theorem Router.Inv.run {s s' : Router p} {ms : List (STime × RouterEvent p)} (h : s.Inv)
    (hrun : (router p).run s ms = some s') : s'.Inv :=
  Machine.run_invariant (P := fun _ => True) (fun _ _ _ h _ hs => h.step hs) h
    (fun _ _ => trivial) hrun

theorem Router.Inv.undone {s : Router p} (h : s.Inv) (now : STime)
    (hadm : Admissible s e) : ∃ t' sv' outs, routerEvent s.tree now {} e = some (t', sv', outs) ∧
      ∃ t'', routerEventRc t' sv' e = some t'' ∧ (t'' = s.tree ↔ ¬ Recongests s.tree now e) := by
  cases e with
  | received x =>
    obtain ⟨⟨t', sv', outs⟩, he⟩ := h.holding.received_isSome now x {}
    exact ⟨t', sv', outs, he, s.tree, received_undone h.marked h.holding he, iff_of_true rfl id⟩
  | forwarded x =>
    have hhold := h.holding_of_mem hadm
    obtain ⟨⟨t', sv', outs⟩, he⟩ := Tree.forwarded_isSome hhold now {}
    exact ⟨t', sv', outs, he, forwarded_undone h.marked hhold he⟩

/-! ### Thresholds in order -/

theorem routerEvent_port_of_ne
    (h : routerEvent t now sv e = some (t', sv', outs)) (hi : i ≠ e.packet.port) :
    t'.ports i = t.ports i := by
  obtain ⟨-, rfl, -⟩ | ⟨-, t₁, ht₁, hcases⟩ := routerEvent_cases h
  · rfl
  have h₁ : t₁.ports i = t.ports i := by
    cases e with
    | received x =>
      cases ht₁
      exact Function.update_of_ne hi ..
    | forwarded x =>
      simp only [counted, Tree.dequeuePacket] at ht₁
      split_ifs at ht₁
      cases ht₁
      exact Function.update_of_ne hi ..
  rw [← h₁]
  obtain ⟨x, rfl, hput⟩ | ⟨sv₁, hcheck, -⟩ := hcases
  · have hi' : i ≠ x.port := hi
    obtain ⟨-, rfl, -, -⟩ | ⟨rfl, -, -⟩ := hput.cases
    · rw [Tree.setNextPossiblePortNormalTime, Tree.setPort_of_ne _ _ hi', Tree.markAbatedTerminal,
        Tree.setPort_of_ne _ _ hi']
    · rw [Tree.setNextPossiblePortNormalTime, Tree.setPort_of_ne _ _ hi']
  · obtain ⟨-, agg, -, rfl, -⟩ | ⟨-, rfl, -⟩ | ⟨-, -, rfl, -⟩ := congestionCheck_cases hcheck
    · rw [Tree.setMarks_of_ne _ _ _ hi, Tree.congested, Tree.setPort_of_ne _ _ hi]
    · rw [Tree.setMarks_of_ne _ _ _ hi, Tree.setPortCongestionState, Tree.setPort_of_ne _ _ hi]
    · rfl

/-- A port that is not congested holds nothing or is below the threshold. -/
def Tree.Below (t : Tree p) : Prop := ∀ i, (t.ports i).isCongested = false →
  (t.ports i).packetCount = 0 ∨ (t.ports i).packetCount < toUnsigned (congestionSize p i)

theorem Tree.Below.routerEvent (h : t.Below)
    (hthresholds : ∀ i, toUnsigned (decongestionSize p i) ≤ toUnsigned (congestionSize p i))
    (he : Congestion.routerEvent t now sv e = some (t', sv', outs)) : t'.Below := by
  intro i hflag
  by_cases hi : i = e.packet.port
  · obtain ⟨-, rfl, -⟩ | ⟨-, t₁, ht₁, hcases⟩ := routerEvent_cases he
    · exact h i hflag
    right
    obtain ⟨x, rfl, hput⟩ | ⟨sv₁, hcheck, -⟩ := hcases
    · -- a congested port stays congested
      have hcong := hput.congested
      have hi' : i = x.port := hi
      subst hi'
      obtain ⟨-, rfl, -, -⟩ | ⟨rfl, -, -⟩ := hput.cases
      · simp [Tree.setNextPossiblePortNormalTime, Tree.markAbatedTerminal, Tree.setPort,
          hcong] at hflag
      · simp [Tree.setNextPossiblePortNormalTime, Tree.setPort, hcong] at hflag
    · rw [← hi] at hcheck
      obtain ⟨-, agg, -, rfl, -⟩ | ⟨hd, rfl, -⟩ | ⟨hc, -, rfl, -⟩ := congestionCheck_cases hcheck
      · simp [Tree.setMarks, Tree.congested] at hflag
      · have hcount : (((t₁.setPortCongestionState i false).setMarks i
            (Tally.subAll t₁.abatedChildCounter (t₁.marks i).toList) ∅).ports i).packetCount =
            (t₁.ports i).packetCount := by
          simp [Tree.setMarks, Tree.setPortCongestionState]
        rw [hcount]
        exact lt_of_lt_of_le hd.2.2 (hthresholds i)
      · exact not_le.1 fun hle => hc ⟨hflag, hle⟩
  · rw [routerEvent_port_of_ne he hi] at hflag ⊢
    exact h i hflag

/-- With thresholds in order the exception does not occur. -/
theorem not_recongests
    (hthresholds : ∀ i, toUnsigned (decongestionSize p i) ≤ toUnsigned (congestionSize p i))
    {portTime : Fin p.radix → STime} {vcTime : Fin p.radix → Fin p.vcPerPort → STime}
    {ms : List (STime × RouterEvent p)} {s : Router p}
    (hrun : (router p).run (Router.init time portTime vcTime) ms = some s)
    (hadm : Admissible s e) : ¬ Recongests s.tree now e := by
  have hinv := (Router.Inv.init time portTime vcTime).run hrun
  have hbelow : s.tree.Below := by
    refine Machine.run_invariant (I := fun s : Router p => s.tree.Below) (P := fun _ => True) ?_
      (fun i _ => .inl rfl) (fun _ _ => trivial) hrun
    rintro s ⟨now, e⟩ s' h - hs
    simp only [router] at hs
    split_ifs at hs
    obtain ⟨⟨t', sv', outs⟩, he, rfl⟩ := Option.map_eq_some_iff.1 hs
    exact h.routerEvent hthresholds he
  cases e with
  | received x => exact id
  | forwarded x =>
    rintro ⟨hport, hflag, hle, -⟩
    have hcount := ((hinv.holding_of_mem hadm hport).port x.port).packets
    rw [onPort_cons, if_pos rfl, bytes_cons] at hcount
    have hsize := x.size_pos
    obtain h0 | hlt := hbelow x.port hflag <;> omega

/-- **With thresholds in order every event is undone**: in every state that a router reaches, and
to the tree as it was. -/
theorem ordered_thresholds_undone (p : RouterParam)
    (hthresholds : ∀ i, toUnsigned (decongestionSize p i) ≤ toUnsigned (congestionSize p i))
    (time : STime) (portTime : Fin p.radix → STime) (vcTime : Fin p.radix → Fin p.vcPerPort → STime)
    (ms : List (STime × RouterEvent p)) (s : Router p)
    (hrun : (router p).run (Router.init time portTime vcTime) ms = some s) (now : STime)
    (e : RouterEvent p) (hadm : Admissible s e) :
    ∃ t' sv' outs, routerEvent s.tree now {} e = some (t', sv', outs) ∧
      routerEventRc t' sv' e = some s.tree := by
  have hinv := (Router.Inv.init time portTime vcTime).run hrun
  obtain ⟨t', sv', outs, he, t'', hrc, hiff⟩ := hinv.undone now hadm
  exact ⟨t', sv', outs, he, hiff.2 (not_recongests hthresholds hrun hadm) ▸ hrc⟩

/-! ### Terminals -/

/-- A terminal; each event has a message of its own to save what it changes. -/
def terminal (tp : TerminalParam) : Machine Terminal (STime × Event) where
  step s m := some (terminalEvent tp s m.1 m.2 {}).1

/-- Abatement is active exactly if the count of signals is positive. -/
def Terminal.Ok (s : Terminal) : Prop := s.isAbatementActive = true ↔ 0 < s.abatementSignalCount

theorem Terminal.Ok.init : Terminal.init.Ok := by simp [Terminal.Ok, Terminal.init]

section Signals

variable {s : Terminal} {sv : TerminalSaved}

theorem Terminal.Ok.receiveAbatementSignal (h : s.Ok) : (receiveAbatementSignal s sv).1.Ok := by
  by_cases h0 : s.abatementSignalCount + 1 = 1
  · simp [Congestion.receiveAbatementSignal, startAbatement, Terminal.Ok, h0]
  · have hpos : 0 < s.abatementSignalCount + 1 ↔ 0 < s.abatementSignalCount := by omega
    simp only [Congestion.receiveAbatementSignal, if_neg h0, Terminal.Ok, hpos]
    exact h

theorem Terminal.Ok.receiveNormalSignal (h : s.Ok) : (receiveNormalSignal s sv).1.Ok := by
  by_cases h0 : s.abatementSignalCount - 1 = 0
  · simp [Congestion.receiveNormalSignal, endAbatement, Terminal.Ok, h0]
  · have hpos : 0 < s.abatementSignalCount - 1 ↔ 0 < s.abatementSignalCount := by omega
    simp only [Congestion.receiveNormalSignal, if_neg h0, Terminal.Ok, hpos]
    exact h

theorem Terminal.Ok.event (h : s.Ok) (tp : TerminalParam) (now : STime) (e : Event) :
    (terminalEvent tp s now e sv).1.Ok := by
  match e with
  | .signal (.abate _) => exact h.receiveAbatementSignal
  | .signal .normal => exact h.receiveNormalSignal
  | .bandwidthCheck => exact h
  | .simAck => exact h

/-- **An event of a terminal is undone.** -/
theorem terminalEvent_undone (h : s.Ok) (tp : TerminalParam) (now : STime) (e : Event) :
    terminalEventRc tp (terminalEvent tp s now e sv).1 e (terminalEvent tp s now e sv).2 = s := by
  obtain ⟨count, epoch, ejected, windows, rate, active, finished, coef⟩ := s
  match e with
  | .signal (.abate _) =>
    by_cases h0 : count = 0
    · -- the first signal turned abatement on
      subst h0
      have hactive : active = false := Bool.eq_false_iff.2 fun hact => lt_irrefl _ (h.1 hact)
      simp [terminalEvent, Congestion.receiveAbatementSignal, startAbatement,
        terminalEventRc, hactive]
    · simp [terminalEvent, Congestion.receiveAbatementSignal, terminalEventRc, h0]
  | .signal .normal =>
    by_cases h1 : count = 1
    · subst h1
      have hactive : active = true := h.2 Int.one_pos
      simp [terminalEvent, Congestion.receiveNormalSignal, endAbatement, terminalEventRc, hactive]
    · have h1' : count - 1 ≠ 0 := by omega
      simp [terminalEvent, Congestion.receiveNormalSignal, terminalEventRc, h1, h1']
  | .bandwidthCheck =>
    simp [terminalEvent, processBandwidthCheck, terminalEventRc, Terminal.window]
  | .simAck => simp [terminalEvent, terminalEventRc]

end Signals

/-- **Counting and rollback.**  In every state that a router reaches the tree counts the packets and
has no entry zero; no assertion fails on the next event, nor when it is undone, and undoing it gives
back the tree exactly if the event is not the exception.  Every event of a terminal is undone. -/
theorem counting_rollback_iff (p : RouterParam) (tp : TerminalParam) :
    (∀ time portTime vcTime ms s, (router p).run (Router.init time portTime vcTime) ms = some s →
      s.tree.Counting ∧ Tally.NoZero s.tree.abatedChildCounter ∧
      ∀ now e, Admissible s e → ∃ t' sv' outs, routerEvent s.tree now {} e = some (t', sv', outs) ∧
        ∃ t'', routerEventRc t' sv' e = some t'' ∧ (t'' = s.tree ↔ ¬ Recongests s.tree now e)) ∧
    ∀ ms s, (terminal tp).run Terminal.init ms = some s → ∀ now e sv,
      terminalEventRc tp (terminalEvent tp s now e sv).1 e (terminalEvent tp s now e sv).2 = s := by
  constructor
  · intro time portTime vcTime ms s hrun
    have hinv := (Router.Inv.init time portTime vcTime).run hrun
    exact ⟨hinv.holding.counting, hinv.marked.noZero, fun now e hadm => hinv.undone now hadm⟩
  · intro ms s hrun now e sv
    have hok : s.Ok := by
      refine Machine.run_invariant (I := Terminal.Ok) (P := fun _ => True) ?_ Terminal.Ok.init
        (fun _ _ => trivial) hrun
      rintro s ⟨now, e⟩ s' h - hs
      cases hs
      exact h.event tp now e
    exact terminalEvent_undone hok tp now e

/-! ### A negative threshold -/

/-- A router with one port, which is watched, and a negative decongestion threshold. -/
def onePort : RouterParam where
  radix := 1
  vcPerPort := 1
  vcSizes _ := 100
  bandwidths _ := 1
  outputPorts := Finset.univ
  singlePortCongestionThreshold := 1 / 2
  singlePortDecongestionThreshold := -1 / 10
  singlePortAggressorUsageThreshold := 1 / 10
  notificationLatency := 1

/-- A packet of a terminal; there is one application for each. -/
def onePort.packet (term size : ℕ) (h : 0 < size) : Packet onePort :=
  ⟨size, h, (0 : Fin 1), (0 : Fin 1), term, term⟩

/-- The first packet makes the port congested, and it is not when the second is forwarded. -/
def onePort.events : List (STime × RouterEvent onePort) :=
  [(0, .received (onePort.packet 0 60 (by decide))),
    (1, .received (onePort.packet 1 5 (by decide))),
    (2, .received (onePort.packet 2 5 (by decide))),
    (1000, .forwarded (onePort.packet 1 5 (by decide)))]

theorem counting_rollback_iff_onePort : ∃ s,
    (router onePort).run (Router.init 0 (fun _ => 0) fun _ _ => 0) onePort.events = some s ∧
      s.tree.Counting := by
  obtain ⟨s, hs⟩ := Option.isSome_iff_exists.1 (by decide +kernel :
    ((router onePort).run (Router.init 0 (fun _ => 0) fun _ _ => 0) onePort.events).isSome = true)
  exact ⟨s, hs, ((counting_rollback_iff onePort ⟨1, 1, 1⟩).1 0 _ _ _ s hs).1⟩

/-- The same router with a decongestion threshold of a quarter. -/
def quarterPort : RouterParam := { onePort with singlePortDecongestionThreshold := 1 / 4 }

/-- Of 60 bytes that make the port congested. -/
def quarterPort.packet : Packet quarterPort :=
  ⟨60, by decide, ⟨0, Nat.one_pos⟩, ⟨0, Nat.one_pos⟩, 0, 0⟩

theorem ordered_thresholds_undone_quarterPort : ∃ s,
    (router quarterPort).run (Router.init 0 (fun _ => 0) fun _ _ => 0)
      [(0, .received quarterPort.packet)] = some s ∧
    ∃ t' sv' outs, routerEvent s.tree 1000 {} (.forwarded quarterPort.packet) =
    some (t', sv', outs) ∧
      routerEventRc t' sv' (.forwarded quarterPort.packet) = some s.tree := by
  have hfacts : ((router quarterPort).run (Router.init 0 (fun _ => 0) fun _ _ => 0)
      [(0, .received quarterPort.packet)]).map
        (fun s => decide (Admissible s (.forwarded quarterPort.packet))) = some true := by
    decide +kernel
  obtain ⟨s, hs, hadm⟩ := Option.map_eq_some_iff.1 hfacts
  exact ⟨s, hs, ordered_thresholds_undone quarterPort (by decide +kernel) 0 _ _ _ s hs 1000 _
    (of_decide_eq_true hadm)⟩

/-- **The third packet makes the port congested again when it is forwarded**, and the expiry time is
not put back. -/
theorem negative_threshold_not_undone :
    onePort.singlePortDecongestionThreshold ≤ onePort.singlePortCongestionThreshold ∧
    ∃ s, (router onePort).run (Router.init 0 (fun _ => 0) fun _ _ => 0) onePort.events = some s ∧
      ∃ now e, Admissible s e ∧ ∃ t' sv' outs t'',
      routerEvent s.tree now {} e = some (t', sv', outs) ∧
        routerEventRc t' sv' e = some t'' ∧ t'' ≠ s.tree := by
  refine ⟨by decide +kernel, ?_⟩
  have hfacts : ((router onePort).run (Router.init 0 (fun _ => 0) fun _ _ => 0) onePort.events).map
      (fun s => decide (Admissible s (.forwarded (onePort.packet 2 5 (by decide))) ∧
        Recongests s.tree 2000 (.forwarded (onePort.packet 2 5 (by decide))))) = some true := by
    decide +kernel
  obtain ⟨s, hs, hdec⟩ := Option.map_eq_some_iff.1 hfacts
  obtain ⟨hadm, hrec⟩ := of_decide_eq_true hdec
  have hinv := (Router.Inv.init 0 (fun _ => 0) fun _ _ => 0).run hs
  obtain ⟨t', sv', outs, he, t'', hrc, hiff⟩ := hinv.undone 2000 hadm
  exact ⟨s, hs, 2000, _, hadm, t', sv', outs, t'', he, hrc, fun heq => hiff.1 heq hrec⟩

end CodesSim.Congestion
