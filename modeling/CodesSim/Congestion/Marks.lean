import CodesSim.Congestion.Basic
import CodesSim.Lib.Network

/-!
# Marks and signals

What the events of a router do to the marks of its ports and to the counters of marks
(`Tree.setMarks`).  `congestionCheck_cases` says it once for the congestion check, and
`routerEvent_cases` for all events.

The invariant of the marks is `Tree.Marked`: a counter is at least the number of marks, and a port
that is not congested has none.
-/

namespace CodesSim.Congestion

open Function

variable {p : RouterParam} {t t' : Tree p} {i j : Fin p.radix} {x : Packet p} {now : STime}
  {sv sv' : Saved} {outs : List Out} {term : ℕ}

/-! ### Changes of a port -/

@[simp] theorem Tree.setPort_self (t : Tree p) (i : Fin p.radix) (f : Port p → Port p) :
    (t.setPort i f).ports i = f (t.ports i) := update_self ..

theorem Tree.setPort_of_ne (t : Tree p) (f : Port p → Port p) (h : j ≠ i) :
    (t.setPort i f).ports j = t.ports j := update_of_ne h ..

theorem Tree.setPort_setPort (t : Tree p) (i : Fin p.radix) (f g : Port p → Port p) :
    (t.setPort i f).setPort i g = t.setPort i (g ∘ f) := by
  rw [Tree.setPort, Tree.setPort_self]
  simp [Tree.setPort]

theorem Tree.setPort_eq_self {f : Port p → Port p} (h : f (t.ports i) = t.ports i) :
    t.setPort i f = t := by
  rw [Tree.setPort, h, update_eq_self]

/-- Replace the counters and the marks of a port. -/
def Tree.setMarks (t : Tree p) (i : Fin p.radix) (counter : Std.ExtTreeMap ℕ ℕ)
    (marks : Std.ExtTreeSet ℕ) : Tree p :=
  { t with abatedChildCounter := counter }.setPort i fun port =>
    { port with abatedTerminals := marks }

/-- The marks of a port. -/
abbrev Tree.marks (t : Tree p) (i : Fin p.radix) : Std.ExtTreeSet ℕ := (t.ports i).abatedTerminals

@[simp] theorem Tree.setMarks_marks (t : Tree p) (i : Fin p.radix) (c : Std.ExtTreeMap ℕ ℕ)
    (s : Std.ExtTreeSet ℕ) : (t.setMarks i c s).marks i = s := by
  simp [Tree.marks, Tree.setMarks]

theorem Tree.setMarks_of_ne (t : Tree p) (c : Std.ExtTreeMap ℕ ℕ) (s : Std.ExtTreeSet ℕ)
    (h : j ≠ i) : (t.setMarks i c s).ports j = t.ports j := by
  rw [Tree.setMarks, Tree.setPort_of_ne _ _ h]

@[simp] theorem Tree.setMarks_counter (t : Tree p) (i : Fin p.radix) (c : Std.ExtTreeMap ℕ ℕ)
    (s : Std.ExtTreeSet ℕ) : (t.setMarks i c s).abatedChildCounter = c := rfl

theorem Tree.setMarks_setMarks (t : Tree p) (i : Fin p.radix) (c c' : Std.ExtTreeMap ℕ ℕ)
    (s s' : Std.ExtTreeSet ℕ) : (t.setMarks i c s).setMarks i c' s' = t.setMarks i c' s' := by
  simp [Tree.setMarks, Tree.setPort]

theorem Tree.setMarks_self (t : Tree p) (i : Fin p.radix) :
    t.setMarks i t.abatedChildCounter (t.marks i) = t := Tree.setPort_eq_self rfl

theorem Tree.foldl_mark (t : Tree p) (i : Fin p.radix) (l : List ℕ) :
    l.foldl (·.markAbatedTerminal i) t =
      t.setMarks i (Tally.addAll t.abatedChildCounter l) (Tally.insertAll (t.marks i) l) := by
  induction l generalizing t with
  | nil => exact (t.setMarks_self i).symm
  | cons term l ih =>
    have hmark : t.markAbatedTerminal i term =
        t.setMarks i (Tally.add t.abatedChildCounter term 1) ((t.marks i).insert term) := rfl
    rw [List.foldl_cons, ih, hmark, Tree.setMarks_setMarks, Tree.setMarks_counter,
      Tree.setMarks_marks]
    rfl

theorem Tree.foldl_unmark (t : Tree p) (i : Fin p.radix) (l : List ℕ) :
    l.foldl (·.markUnabatedTerminal i) t =
      t.setMarks i (Tally.subAll t.abatedChildCounter l) (Tally.eraseAll (t.marks i) l) := by
  induction l generalizing t with
  | nil => exact (t.setMarks_self i).symm
  | cons term l ih =>
    have hmark : t.markUnabatedTerminal i term =
        t.setMarks i (Tally.sub t.abatedChildCounter term 1) ((t.marks i).erase term) := rfl
    rw [List.foldl_cons, ih, hmark, Tree.setMarks_setMarks, Tree.setMarks_counter,
      Tree.setMarks_marks]
    rfl

theorem abateAll_fst (t : Tree p) (i : Fin p.radix) (l : List (ℕ × ℕ)) :
    (abateAll i t l).1 = (l.map Prod.fst).foldl (·.markAbatedTerminal i) t := by
  induction l generalizing t with
  | nil => rfl
  | cons x l ih => rw [abateAll, List.map_cons, List.foldl_cons, ← ih]

theorem unabateAll_fst (t : Tree p) (i : Fin p.radix) (l : List ℕ) :
    (unabateAll i t l).1 = l.foldl (·.markUnabatedTerminal i) t := by
  induction l generalizing t with
  | nil => rfl
  | cons term l ih => rw [unabateAll, List.foldl_cons, ← ih]

/-! ### The invariant -/

/-- The number of ports that mark a terminal. -/
def Tree.markers (t : Tree p) (term : ℕ) : ℕ := (Finset.univ.filter fun i => term ∈ t.marks i).card

/-- The counter of the marks of a terminal. -/
abbrev Tree.counter (t : Tree p) (term : ℕ) : ℕ := Tally.count t.abatedChildCounter term

/-- **The invariant** of the marks. -/
structure Tree.Marked (t : Tree p) : Prop where
  /-- Nothing marks a terminal for the whole router. -/
  root : t.abatedTerminals = ∅
  noZero : Tally.NoZero t.abatedChildCounter
  markers_le : ∀ term, t.markers term ≤ t.counter term
  empty : ∀ i, (t.ports i).isCongested = false → t.marks i = ∅

theorem Tree.Marked.isAbated_iff (h : t.Marked) : t.IsAbatedTerminal term ↔ 0 < t.counter term := by
  rw [Tree.IsAbatedTerminal, h.root]
  exact or_iff_right Std.ExtTreeSet.not_mem_empty

theorem Tree.markers_pos (h : term ∈ t.marks i) : 0 < t.markers term :=
  Finset.card_pos.2 ⟨i, Finset.mem_filter.2 ⟨Finset.mem_univ i, h⟩⟩

theorem Tree.markers_setMarks (t : Tree p) (i : Fin p.radix) (c : Std.ExtTreeMap ℕ ℕ)
    (s : Std.ExtTreeSet ℕ) (term : ℕ) :
    (t.setMarks i c s).markers term + (if term ∈ t.marks i then 1 else 0) =
      t.markers term + if term ∈ s then 1 else 0 := by
  have hports : ∀ j, (t.setMarks i c s).marks j = update t.marks i s j := by
    intro j
    by_cases hj : j = i
    · subst hj
      rw [Tree.setMarks_marks, update_self]
    · rw [Tree.marks, Tree.setMarks_of_ne _ _ _ hj, update_of_ne hj]
  rw [Tree.markers, Tree.markers, Finset.card_filter, Finset.card_filter]
  simp only [hports]
  exact LpSystem.sum_update (fun _ s => if term ∈ s then 1 else 0) t.marks (Finset.mem_univ i) s

theorem Tree.markers_congr (h : ∀ i, t'.marks i = t.marks i) :
    t'.markers term = t.markers term := by
  rw [Tree.markers, Tree.markers]
  simp only [h]

theorem Tree.Marked.init (time : STime) (portTime : Fin p.radix → STime)
    (vcTime : Fin p.radix → Fin p.vcPerPort → STime) :
    (Tree.init p time portTime vcTime).Marked where
  root := rfl
  noZero := Tally.noZero_empty
  markers_le term := by
    have hempty : (Finset.univ.filter fun i =>
        term ∈ (Tree.init p time portTime vcTime).marks i) = ∅ := by
      refine Finset.filter_eq_empty_iff.2 fun i _ => ?_
      exact Std.ExtTreeSet.not_mem_empty
    rw [Tree.markers, hempty]
    exact Nat.zero_le _
  empty i _ := rfl

/-- Two trees with the same marks and counters. -/
structure Tree.SameMarks (t t' : Tree p) : Prop where
  root : t'.abatedTerminals = t.abatedTerminals
  counter : t'.abatedChildCounter = t.abatedChildCounter
  marks : ∀ i, t'.marks i = t.marks i

theorem Tree.SameMarks.isAbated (h : t.SameMarks t') :
    t'.IsAbatedTerminal term ↔ t.IsAbatedTerminal term := by
  rw [Tree.IsAbatedTerminal, Tree.IsAbatedTerminal, h.root, h.counter]

theorem Tree.Marked.congr (h : t.Marked) (hs : t.SameMarks t')
    (hflag : ∀ i, (t'.ports i).isCongested = (t.ports i).isCongested) : t'.Marked where
  root := by rw [hs.root, h.root]
  noZero := by rw [hs.counter]; exact h.noZero
  markers_le term := by
    rw [Tree.markers_congr hs.marks, Tree.counter, hs.counter]
    exact h.markers_le term
  empty i hi := by
    rw [hs.marks]
    exact h.empty i (by rw [← hflag, hi])

/-! ### The congestion check -/

/-- A port that becomes congested, before its terminals are marked. -/
def Tree.congested (t : Tree p) (i : Fin p.radix) (time : STime) : Tree p :=
  t.setPort i fun port => { port with isCongested := true, nextPossibleNormalTime := time }

theorem Tree.congested_marks (t : Tree p) (i : Fin p.radix) (time : STime) (j : Fin p.radix) :
    (t.congested i time).marks j = t.marks j := by
  by_cases hj : j = i
  · subst hj
    simp [Tree.congested, Tree.marks]
  · rw [Tree.congested, Tree.marks, Tree.setPort_of_ne _ _ hj]

theorem Tree.setPortCongestionState_marks (t : Tree p) (i : Fin p.radix) (b : Bool)
    (j : Fin p.radix) : (t.setPortCongestionState i b).marks j = t.marks j := by
  by_cases hj : j = i
  · subst hj
    simp [Tree.setPortCongestionState, Tree.marks]
  · rw [Tree.setPortCongestionState, Tree.marks, Tree.setPort_of_ne _ _ hj]

/-- **What the congestion check does.** -/
theorem congestionCheck_cases (h : congestionCheck t now i sv = some (t', sv', outs)) :
    (Congests t i ∧ ∃ agg, aggressors (t.ports i) = some agg ∧
      t' = (t.congested i (expireTime p i now)).setMarks i
        (Tally.addAll t.abatedChildCounter (agg.map Prod.fst))
        (Tally.insertAll (t.marks i) (agg.map Prod.fst)) ∧
      sv' = { sv with toCongest := true, abated := agg.map Prod.fst } ∧
      outs = (abateAll i (t.congested i (expireTime p i now)) agg).2) ∨
    (Decongests t i now ∧
      t' = (t.setPortCongestionState i false).setMarks i
        (Tally.subAll t.abatedChildCounter (t.marks i).toList) ∅ ∧
      sv' = { sv with toDecongest := true, abated := [], deabated := (t.marks i).toList } ∧
      outs = (unabateAll i (t.setPortCongestionState i false) (t.marks i).toList).2) ∨
    (¬ Congests t i ∧ ¬ Decongests t i now ∧ t' = t ∧ sv' = { sv with abated := [] } ∧
      outs = []) := by
  have hset : (t.setPortCongestionState i true).setNextPossiblePortNormalTime i
    (expireTime p i now) =
      t.congested i (expireTime p i now) := Tree.setPort_setPort ..
  simp only [congestionCheck, hset] at h
  split_ifs at h with hc hd
  · obtain ⟨agg, hagg, h⟩ := Option.map_eq_some_iff.1 h
    cases h
    have hport : aggressors ((t.congested i (expireTime p i now)).ports i) =
        aggressors (t.ports i) := by
      rw [Tree.congested, Tree.setPort_self]
      rfl
    refine .inl ⟨hc, agg, by rw [← hport, hagg], ?_, rfl, rfl⟩
    rw [abateAll_fst, Tree.foldl_mark, Tree.congested_marks]
    rfl
  · cases h
    refine .inr (.inl ⟨hd, ?_, rfl, rfl⟩)
    rw [unabateAll_fst, Tree.foldl_unmark, Tree.setPortCongestionState_marks,
      Tally.eraseAll_toList]
    rfl
  · cases h
    exact .inr (.inr ⟨hc, hd, rfl, rfl, rfl⟩)

/-! ### The invariant is kept -/

theorem Tree.Marked.setMarks {t₁ : Tree p} {c : Std.ExtTreeMap ℕ ℕ} {s : Std.ExtTreeSet ℕ}
    (h : t.Marked) (hs : t.SameMarks t₁)
    (hflags : ∀ j, j ≠ i → (t₁.ports j).isCongested = (t.ports j).isCongested)
    (hc : Tally.NoZero c)
    (hle : ∀ term, t.counter term + (if term ∈ s then 1 else 0) ≤
      Tally.count c term + if term ∈ t.marks i then 1 else 0)
    (hflag : (t₁.ports i).isCongested = false → s = ∅) : (t₁.setMarks i c s).Marked where
  root := hs.root.trans h.root
  noZero := hc
  markers_le term := by
    have hset := t₁.markers_setMarks i c s term
    have hmarkers := h.markers_le term
    have hterm := hle term
    rw [Tree.markers_congr hs.marks, hs.marks] at hset
    rw [Tree.counter, Tree.setMarks_counter]
    rw [Tree.counter] at hmarkers hterm
    omega
  empty j hj := by
    by_cases hij : j = i
    · subst hij
      rw [Tree.setMarks_marks]
      exact hflag (by simpa [Tree.setMarks] using hj)
    · rw [Tree.marks, Tree.setMarks_of_ne _ _ _ hij, ← Tree.marks, hs.marks]
      rw [Tree.setMarks_of_ne _ _ _ hij, hflags j hij] at hj
      exact h.empty j hj

theorem Tree.sameMarks_congested (t : Tree p) (i : Fin p.radix) (time : STime) :
    t.SameMarks (t.congested i time) := ⟨rfl, rfl, t.congested_marks i time⟩

theorem Tree.sameMarks_setPortCongestionState (t : Tree p) (i : Fin p.radix) (b : Bool) :
    t.SameMarks (t.setPortCongestionState i b) := ⟨rfl, rfl, t.setPortCongestionState_marks i b⟩

theorem Tree.Marked.count_toList_le (h : t.Marked) (i : Fin p.radix) (term : ℕ) :
    (t.marks i).toList.count term ≤ t.counter term := by
  by_cases hmem : term ∈ t.marks i
  · have hone := List.nodup_iff_count_le_one.1 (Tally.nodup_toList (t.marks i)) term
    have hpos := Tree.markers_pos hmem
    have hle := h.markers_le term
    omega
  · rw [List.count_eq_zero.2 fun hl => hmem (Std.ExtTreeSet.mem_toList.1 hl)]
    exact Nat.zero_le _

theorem count_toList (s : Std.ExtTreeSet ℕ) (term : ℕ) :
    s.toList.count term = if term ∈ s then 1 else 0 := by
  split_ifs with hmem
  · exact List.count_eq_one_of_mem (Tally.nodup_toList s) (Std.ExtTreeSet.mem_toList.2 hmem)
  · exact List.count_eq_zero.2 fun hl => hmem (Std.ExtTreeSet.mem_toList.1 hl)

theorem Tree.Marked.congestionCheck (h : t.Marked)
    (hc : Congestion.congestionCheck t now i sv = some (t', sv', outs)) : t'.Marked := by
  obtain ⟨hcong, agg, -, rfl, -, -⟩ | ⟨hdec, rfl, -, -⟩ | ⟨-, -, rfl, -, -⟩ :=
    congestionCheck_cases hc
  · refine h.setMarks (t.sameMarks_congested i _) (fun j hj => ?_) (h.noZero.addAll _)
      (fun term => ?_) fun hflag => ?_
    · rw [Tree.congested, Tree.setPort_of_ne _ _ hj]
    · rw [Tally.count_addAll, Tree.counter]
      by_cases hmem : term ∈ agg.map Prod.fst
      · have hpos := List.count_pos_iff.2 hmem
        split_ifs <;> omega
      · have hiff : term ∈ Tally.insertAll (t.marks i) (agg.map Prod.fst) ↔ term ∈ t.marks i := by
          rw [Tally.mem_insertAll]
          exact or_iff_left hmem
        simp only [hiff]
        omega
    · simp [Tree.congested] at hflag
  · refine h.setMarks (t.sameMarks_setPortCongestionState i false) (fun j hj => ?_)
      (h.noZero.subAll _) (fun term => ?_) fun _ => rfl
    · rw [Tree.setPortCongestionState, Tree.setPort_of_ne _ _ hj]
    · have hle := h.count_toList_le i term
      rw [if_neg Std.ExtTreeSet.not_mem_empty, Tally.count_subAll, count_toList] at *
      rw [Tree.counter] at *
      omega
  · exact h

/-! ### Events -/

/-- Two trees that differ in counts only. -/
structure Tree.OnlyCounts (t t' : Tree p) : Prop extends t.SameMarks t' where
  flags : ∀ i, (t'.ports i).isCongested = (t.ports i).isCongested
  times : ∀ i, (t'.ports i).nextPossibleNormalTime = (t.ports i).nextPossibleNormalTime

theorem Tree.onlyCounts_onPath {f : Node → Node} (t : Tree p) (x : Packet p)
    (hset : ∀ n, (f n).abatedTerminals = n.abatedTerminals)
    (hcounter : ∀ n, (f n).abatedChildCounter = n.abatedChildCounter)
    (hflag : ∀ n, (f n).isCongested = n.isCongested)
    (htime : ∀ n, (f n).nextPossibleNormalTime = n.nextPossibleNormalTime) :
    t.OnlyCounts (t.onPath x f) := by
  have hport : ∀ {α : Type} (g : Node → α), (∀ n, g (f n) = g n) →
      ∀ i, g ((t.onPath x f).ports i).toNode = g (t.ports i).toNode := by
    intro α g hg i
    by_cases hi : i = x.port
    · subst hi
      simp [Tree.onPath, hg]
    · exact congrArg (fun port : Port p => g port.toNode) (update_of_ne hi ..)
  exact ⟨⟨hset _, hcounter _, hport Node.abatedTerminals hset⟩, hport Node.isCongested hflag,
    hport Node.nextPossibleNormalTime htime⟩

theorem Tree.onlyCounts_enqueuePacket (t : Tree p) (x : Packet p) :
    t.OnlyCounts (t.enqueuePacket x) :=
  t.onlyCounts_onPath x (fun _ => rfl) (fun _ => rfl) (fun _ => rfl) fun _ => rfl

theorem Tree.onlyCounts_dequeuePacket (h : t.dequeuePacket x = some t') : t.OnlyCounts t' := by
  rw [Tree.dequeuePacket] at h
  split_ifs at h
  cases h
  exact t.onlyCounts_onPath x (fun _ => rfl) (fun _ => rfl) (fun _ => rfl) fun _ => rfl

def RouterEvent.packet : RouterEvent p → Packet p
  | .received x => x
  | .forwarded x => x

/-- The tree when the packet of an event is counted. -/
def counted (t : Tree p) : RouterEvent p → Option (Tree p)
  | .received x => some (t.enqueuePacket x)
  | .forwarded x => t.dequeuePacket x

variable {e : RouterEvent p}

theorem counted_onlyCounts (h : counted t e = some t') : t.OnlyCounts t' := by
  cases e with
  | received x =>
    cases h
    exact t.onlyCounts_enqueuePacket x
  | forwarded x => exact Tree.onlyCounts_dequeuePacket h

/-- A congested port receives a packet: its time is put off, and perhaps the terminal is marked. -/
structure PutOff (t t' : Tree p) (x : Packet p) (sv sv' : Saved) (outs : List Out) : Prop where
  congested : (t.ports x.port).isCongested = true
  cases : (MarksNew t x ∧
      t' = (t.markAbatedTerminal x.port x.term).setNextPossiblePortNormalTime x.port
        ((t.ports x.port).nextPossibleNormalTime + bytesToNs x.size (p.bandwidths x.port)) ∧
      sv' = { sv with
        savedExpireTime := (t.ports x.port).nextPossibleNormalTime
        receivedNewWhileCongested := true
        savedTermId := x.term } ∧
      outs = [sendSignal p x.term (.abate x.app)]) ∨
    (t' = t.setNextPossiblePortNormalTime x.port
        ((t.ports x.port).nextPossibleNormalTime + bytesToNs x.size (p.bandwidths x.port)) ∧
      sv' = { sv with savedExpireTime := (t.ports x.port).nextPossibleNormalTime } ∧ outs = [])

/-- **What an event of a router does**: nothing at a port that is not watched; otherwise the packet
is counted, and the port is checked or puts off its time. -/
theorem routerEvent_cases (h : routerEvent t now sv e = some (t', sv', outs)) :
    (e.packet.port ∉ p.outputPorts ∧ t' = t ∧ sv' = sv ∧ outs = []) ∨
    (e.packet.port ∈ p.outputPorts ∧ ∃ t₁, counted t e = some t₁ ∧
      ((∃ x, e = .received x ∧ PutOff t₁ t' x sv sv' outs) ∨
        ∃ sv₁, congestionCheck t₁ now e.packet.port sv₁ = some (t', sv', outs) ∧
          ((∃ x, e = .received x ∧ (t₁.ports x.port).isCongested = false ∧ sv₁ = { sv with
              savedExpireTime := (t₁.ports x.port).nextPossibleNormalTime }) ∨
            ∃ x, e = .forwarded x ∧ sv₁ = sv))) := by
  cases e with
  | received x =>
    simp only [routerEvent, receivedPacket] at h
    split_ifs at h with hport hflag hnew
    · cases h
      exact .inr ⟨hport, _, rfl, .inl ⟨x, rfl, hflag, .inl ⟨hnew, rfl, rfl, rfl⟩⟩⟩
    · cases h
      exact .inr ⟨hport, _, rfl, .inl ⟨x, rfl, hflag, .inr ⟨rfl, rfl, rfl⟩⟩⟩
    · exact .inr ⟨hport, _, rfl, .inr ⟨_, h, .inl ⟨x, rfl, by simpa using hflag, rfl⟩⟩⟩
    · cases h
      exact .inl ⟨hport, rfl, rfl, rfl⟩
  | forwarded x =>
    simp only [routerEvent, forwardedPacket] at h
    split_ifs at h with hport
    · obtain ⟨t₁, ht₁, h⟩ := Option.bind_eq_some_iff.1 h
      exact .inr ⟨hport, t₁, ht₁, .inr ⟨sv, h, .inr ⟨x, rfl, rfl⟩⟩⟩
    · cases h
      exact .inl ⟨hport, rfl, rfl, rfl⟩

theorem Tree.setNextPossiblePortNormalTime_sameMarks (t : Tree p) (i : Fin p.radix) (time : STime) :
    t.SameMarks (t.setNextPossiblePortNormalTime i time) ∧
      ∀ j, ((t.setNextPossiblePortNormalTime i time).ports j).isCongested =
        (t.ports j).isCongested := by
  have hport : ∀ {α : Type} (g : Port p → α),
      (∀ port : Port p, g { port with nextPossibleNormalTime := time } = g port) →
      ∀ j, g ((t.setNextPossiblePortNormalTime i time).ports j) = g (t.ports j) := by
    intro α g hg j
    by_cases hj : j = i
    · subst hj
      rw [Tree.setNextPossiblePortNormalTime, Tree.setPort_self, hg]
    · rw [Tree.setNextPossiblePortNormalTime, Tree.setPort_of_ne _ _ hj]
  exact ⟨⟨rfl, rfl, hport (·.abatedTerminals) fun _ => rfl⟩, hport (·.isCongested) fun _ => rfl⟩

theorem Tree.Marked.markAbatedTerminal (h : t.Marked) (hflag : (t.ports i).isCongested = true)
    (term : ℕ) : (t.markAbatedTerminal i term).Marked := by
  have hmark : t.markAbatedTerminal i term =
      t.setMarks i (Tally.add t.abatedChildCounter term 1) ((t.marks i).insert term) := rfl
  rw [hmark]
  refine h.setMarks ⟨rfl, rfl, fun _ => rfl⟩ (fun _ _ => rfl) (h.noZero.add Nat.one_pos)
    (fun k => ?_) fun hf => ?_
  · simp only [Tally.count_add, Tally.mem_insert, Tree.counter]
    by_cases hk : k = term
    · subst hk
      simp
    · have hk' : ¬ term = k := fun he => hk he.symm
      simp [hk, hk']
  · rw [hflag] at hf
    cases hf

/-- **The marks stay consistent.** -/
theorem Tree.Marked.routerEvent (h : t.Marked)
    (he : Congestion.routerEvent t now sv e = some (t', sv', outs)) : t'.Marked := by
  obtain ⟨-, rfl, -, -⟩ | ⟨-, t₁, ht₁, hcases⟩ := routerEvent_cases he
  · exact h
  have honly := counted_onlyCounts ht₁
  have h₁ := h.congr honly.toSameMarks honly.flags
  obtain ⟨x, -, hput⟩ | ⟨sv₁, hcheck, -⟩ := hcases
  · obtain ⟨-, rfl, -, -⟩ | ⟨rfl, -, -⟩ := hput.cases
    · have hmark := h₁.markAbatedTerminal hput.congested x.term
      exact hmark.congr (Tree.setNextPossiblePortNormalTime_sameMarks ..).1
        (Tree.setNextPossiblePortNormalTime_sameMarks ..).2
    · exact h₁.congr (Tree.setNextPossiblePortNormalTime_sameMarks ..).1
        (Tree.setNextPossiblePortNormalTime_sameMarks ..).2
  · exact h₁.congestionCheck hcheck

end CodesSim.Congestion
