import CodesSim.Congestion.Rollback
import Mathlib.Tactic.Linarith

/-!
# The abatement protocol

A router sends a terminal `ABATE` when the first of its ports marks the terminal and `NORMAL` when
the last mark is taken away, and a terminal abates as long as it has more of the one than of the
other.  The protocol counts twice: a router the marks of its ports
(`abated_terminal_child_counter`), a terminal the routers.

The counter of a router is not always the number of marks.  The aggressors of a port are pairs of a
terminal and an application, and a terminal with two applications among them is marked twice
(`Clash`): the counter is raised by two, but there is one mark to be taken away later, so the router
never sends `NORMAL`.

* `Abatement.Inv` : the invariant of every run.  Signals and counters agree, whatever the marks are;
* `counter_iff` : one event keeps the counters exact if and only if it has no clash;
* `orderly_iff` : a run is orderly exactly if none of its events has a clash;
* `meets_not_clashes` : there is none if the threshold for an aggressor is positive.
-/

namespace CodesSim.Congestion

open Function

variable {p : RouterParam} {t t' : Tree p} {i : Fin p.radix} {x : Packet p} {now : STime}
  {sv sv' : Saved} {outs : List Out} {term : ℕ}

/-! ### Signals -/

/-- What a signal adds to the count of a terminal. -/
def Signal.weight : Signal → ℤ
  | .abate _ => 1
  | .normal => -1

/-- What a signal on its way adds to the count of a terminal. -/
def Out.weight (term : ℕ) (o : Out) : ℤ := if o.term = term then o.signal.weight else 0

/-- The `ABATE` signals to a terminal minus the `NORMAL` signals. -/
def balance (term : ℕ) (outs : List Out) : ℤ := (outs.map (Out.weight term)).sum

@[simp] theorem balance_nil : balance term [] = 0 := rfl

@[simp] theorem balance_cons (o : Out) (outs : List Out) :
    balance term (o :: outs) = o.weight term + balance term outs := rfl

@[simp] theorem balance_append (outs outs' : List Out) :
    balance term (outs ++ outs') = balance term outs + balance term outs' := by
  simp [balance]

theorem balance_eraseIdx {o : Out} {k : ℕ} (h : outs[k]? = some o) :
    balance term (outs.eraseIdx k) = balance term outs - o.weight term := by
  obtain ⟨hk, rfl⟩ := List.getElem?_eq_some_iff.1 h
  have hperm := (List.getElem_cons_eraseIdx_perm hk).map (Out.weight term)
  have hsum := hperm.sum_eq
  rw [List.map_cons, List.sum_cons] at hsum
  rw [balance, balance]
  omega

/-- 1 if a router has marked a terminal. -/
def Tree.abated (t : Tree p) (term : ℕ) : ℤ := if t.IsAbatedTerminal term then 1 else 0

theorem Tree.SameMarks.abated (h : t.SameMarks t') : t'.abated term = t.abated term := by
  simp only [Tree.abated, h.isAbated]

theorem Tree.isAbated_markAbatedTerminal {term' : ℕ} :
    (t.markAbatedTerminal i term').IsAbatedTerminal term ↔ term = term' ∨
    t.IsAbatedTerminal term := by
  have hcount : Tally.count (t.markAbatedTerminal i term').abatedChildCounter term =
      Tally.count t.abatedChildCounter term + if term' = term then 1 else 0 := Tally.count_add
  rw [Tree.IsAbatedTerminal, hcount, Tree.IsAbatedTerminal]
  change term ∈ t.abatedTerminals ∨ _ ↔ _
  by_cases h : term' = term
  · subst h
    simp
  · have h' : ¬ term = term' := fun he => h he.symm
    simp [h, h']

theorem balance_abateAll (term : ℕ) (t : Tree p) (i : Fin p.radix) (l : List (ℕ × ℕ)) :
    balance term (abateAll i t l).2 = (abateAll i t l).1.abated term - t.abated term := by
  induction l generalizing t with
  | nil => simp [abateAll]
  | cons x l ih =>
    obtain ⟨term', app⟩ := x
    have hrest := ih (t.markAbatedTerminal i term')
    have hmark : (t.markAbatedTerminal i term').abated term =
        if term = term' ∨ t.IsAbatedTerminal term then 1 else 0 := by
      simp only [Tree.abated, Tree.isAbated_markAbatedTerminal]
    simp only [abateAll]
    rw [hmark] at hrest
    by_cases habated : t.IsAbatedTerminal term'
    · rw [if_pos habated, hrest, Tree.abated]
      by_cases hterm : term = term'
      · subst hterm
        simp [habated, Tree.abated]
      · simp [hterm, Tree.abated]
    · rw [if_neg habated, balance_cons, hrest, Out.weight, Tree.abated]
      by_cases hterm : term = term'
      · subst hterm
        simp [habated, sendSignal, Signal.weight, Tree.abated]
      · have hterm' : ¬ term' = term := fun he => hterm he.symm
        simp [hterm, hterm', sendSignal, Tree.abated]

/-- What is sent when marks are taken away. -/
theorem balance_unabateAll (t : Tree p) (i : Fin p.radix) {l : List ℕ} (hl : l.Nodup)
    (hroot : t.abatedTerminals = ∅) (hpos : ∀ term ∈ l, 0 < t.counter term) :
    balance term (unabateAll i t l).2 = (unabateAll i t l).1.abated term - t.abated term := by
  induction l generalizing t with
  | nil => simp [unabateAll]
  | cons term' l ih =>
    obtain ⟨hnot, hnodup⟩ := List.nodup_cons.1 hl
    have hcount : ∀ k, (t.markUnabatedTerminal i term').counter k =
        t.counter k - if term' = k then 1 else 0 := fun k => Tally.count_sub
    have hiff : ∀ (t : Tree p) k, t.abatedTerminals = ∅ →
      (t.IsAbatedTerminal k ↔ 0 < t.counter k) := by
      intro t k ht
      rw [Tree.IsAbatedTerminal, ht]
      exact or_iff_right Std.ExtTreeSet.not_mem_empty
    have hrest := ih (t.markUnabatedTerminal i term') hnodup hroot fun k hk => by
      have hne : term' ≠ k := fun he => hnot (he ▸ hk)
      rw [hcount, if_neg hne]
      exact hpos k (List.mem_cons_of_mem _ hk)
    have hpos' := hpos term' List.mem_cons_self
    have hroot' : (t.markUnabatedTerminal i term').abatedTerminals = ∅ := hroot
    have hchange : (t.markUnabatedTerminal i term').abated term - t.abated term =
        if term' = term ∧ t.counter term = 1 then -1 else 0 := by
      simp only [Tree.abated, hiff _ _ hroot, hiff _ _ hroot', hcount]
      by_cases hterm : term' = term
      · subst hterm
        by_cases hone : t.counter term' = 1
        · simp [hone]
        · have h1 : 0 < t.counter term' - 1 := by omega
          simp [hone, hpos', h1]
      · simp [hterm]
    simp only [unabateAll]
    by_cases habated : (t.markUnabatedTerminal i term').IsAbatedTerminal term'
    · have h1 := (hiff _ _ hroot').1 habated
      rw [hcount, if_pos rfl] at h1
      rw [if_pos habated, hrest]
      have hsame : ¬ (term' = term ∧ t.counter term = 1) := by
        rintro ⟨rfl, hone⟩
        omega
      rw [if_neg hsame] at hchange
      omega
    · have h1 : ¬ 0 < t.counter term' - 1 := by
        intro h
        refine habated ((hiff _ _ hroot').2 ?_)
        rwa [hcount, if_pos rfl]
      have hone : t.counter term' = 1 := by omega
      rw [if_neg habated, balance_cons, hrest, Out.weight]
      by_cases hterm : term' = term
      · subst hterm
        rw [if_pos ⟨rfl, hone⟩] at hchange
        simp only [sendSignal, if_pos, Signal.weight]
        omega
      · rw [if_neg fun h => hterm h.1] at hchange
        simp only [sendSignal]
        omega

/-- **What an event sends** to a terminal is the change of whether the router has marked it. -/
theorem balance_routerEvent (term : ℕ) {e : RouterEvent p} (h : t.Marked)
    (he : routerEvent t now sv e = some (t', sv', outs)) :
    balance term outs = t'.abated term - t.abated term := by
  obtain ⟨-, rfl, -, rfl⟩ | ⟨-, t₁, ht₁, hcases⟩ := routerEvent_cases he
  · simp
  have honly := counted_onlyCounts ht₁
  have h₁ := h.congr honly.toSameMarks honly.flags
  rw [← honly.toSameMarks.abated]
  obtain ⟨x, -, hput⟩ | ⟨sv₁, hcheck, -⟩ := hcases
  · obtain ⟨hnew, rfl, -, rfl⟩ | ⟨rfl, -, rfl⟩ := hput.cases
    · rw [(Tree.setNextPossiblePortNormalTime_sameMarks ..).1.abated]
      have hone := balance_abateAll term t₁ x.port [(x.term, x.app)]
      rw [abateAll, if_neg hnew.1] at hone
      exact hone
    · rw [(Tree.setNextPossiblePortNormalTime_sameMarks ..).1.abated, balance_nil, sub_self]
  · obtain ⟨-, agg, -, rfl, -, rfl⟩ | ⟨-, rfl, -, rfl⟩ | ⟨-, -, rfl, -, rfl⟩ :=
      congestionCheck_cases hcheck
    · rw [balance_abateAll, abateAll_fst, Tree.foldl_mark, Tree.congested_marks,
        (t₁.sameMarks_congested ..).abated]
      rfl
    · have hmarks := t₁.sameMarks_setPortCongestionState e.packet.port false
      rw [balance_unabateAll _ _ (Tally.nodup_toList _) (hmarks.root.trans h₁.root), unabateAll_fst,
        Tree.foldl_unmark, hmarks.marks, Tally.eraseAll_toList, hmarks.abated, hmarks.counter]
      intro k hk
      rw [Tree.counter, hmarks.counter]
      exact lt_of_lt_of_le (Tree.markers_pos (Std.ExtTreeSet.mem_toList.1 hk)) (h₁.markers_le k)
    · simp

/-! ### Counters -/

/-- The counters of a router are the numbers of marks. -/
def Tree.Exact (t : Tree p) : Prop := ∀ term, t.counter term = t.markers term

/-- An application of a port that is an aggressor. -/
def Port.Aggressor (port : Port p) (app : ℕ) : Prop :=
  ∃ usage, port.appCount[app]? = some usage ∧ IsAggressor p usage port.packetCount

/-- A port has packets of an application from a terminal. -/
def Port.Uses (port : Port p) (app term : ℕ) : Prop :=
  ∃ terms, port.appToTerminal[app]? = some terms ∧ ∃ bytes, terms[term]? = some bytes

/-- **A clash**: a port has packets of two aggressors from one terminal. -/
def Port.Clash (port : Port p) : Prop := ∃ term app app', app ≠ app' ∧
  (port.Aggressor app ∧ port.Uses app term) ∧ port.Aggressor app' ∧ port.Uses app' term

theorem mem_flatten_of_mapM {α β : Type} {f : α → Option (List β)} {es : List α}
    {ls : List (List β)}
    (h : es.mapM f = some ls) (y : β) : y ∈ ls.flatten ↔ ∃ e ∈ es, ∃ l, f e = some l ∧ y ∈ l := by
  induction es generalizing ls with
  | nil =>
    cases h
    simp
  | cons e es ih =>
    simp only [List.mapM_cons, Option.pure_def, Option.bind_eq_bind, Option.bind_eq_some_iff] at h
    obtain ⟨l, hl, ls', hls, h⟩ := h
    cases h
    simp [ih hls, hl]

theorem exists_of_mapM {α β : Type} {f : α → Option β} {es : List α} {ls : List β}
    (h : es.mapM f = some ls) {e : α} (he : e ∈ es) : ∃ l, f e = some l := by
  induction es generalizing ls with
  | nil => cases he
  | cons e' es ih =>
    simp only [List.mapM_cons, Option.pure_def, Option.bind_eq_bind, Option.bind_eq_some_iff] at h
    obtain ⟨l, hl, ls', hls, -⟩ := h
    obtain rfl | he := List.mem_cons.1 he
    · exact ⟨l, hl⟩
    · exact ih hls he

theorem nodup_flatten_of_mapM {α β : Type} {f : α → Option (List β)} {es : List α}
    {ls : List (List β)} (h : es.mapM f = some ls) (hnodup : ∀ e ∈ es, ∀ l, f e = some l → l.Nodup)
    (hdisjoint : es.Pairwise fun e e' => ∀ l l', f e = some l → f e' = some l' → l.Disjoint l') :
    ls.flatten.Nodup := by
  induction es generalizing ls with
  | nil =>
    cases h
    exact List.nodup_nil
  | cons e es ih =>
    simp only [List.mapM_cons, Option.pure_def, Option.bind_eq_bind, Option.bind_eq_some_iff] at h
    obtain ⟨l, hl, ls', hls, h⟩ := h
    cases h
    obtain ⟨hhead, htail⟩ := List.pairwise_cons.1 hdisjoint
    rw [List.flatten_cons]
    refine (hnodup e List.mem_cons_self l hl).append
      (ih hls (fun e' he' => hnodup e' (List.mem_cons_of_mem _ he')) htail) fun y hy hy' => ?_
    obtain ⟨e', he', l', hl', hmem⟩ := (mem_flatten_of_mapM hls y).1 hy'
    exact hhead e' he' l l' hl hl' hy hmem

theorem mem_aggressorsOf {port : Port p} {e y : ℕ × ℕ} {l : List (ℕ × ℕ)}
    (h : aggressorsOf port e = some l) :
    y ∈ l ↔ IsAggressor p e.2 port.packetCount ∧ y.2 = e.1 ∧ port.Uses e.1 y.1 := by
  rw [aggressorsOf] at h
  split_ifs at h with h0 hagg
  · obtain ⟨terms, hterms, rfl⟩ := Option.map_eq_some_iff.1 h
    constructor
    · intro hy
      obtain ⟨⟨term, bytes⟩, hmem, rfl⟩ := List.mem_map.1 hy
      exact ⟨hagg, rfl, terms, hterms, bytes, Std.ExtTreeMap.mem_toList_iff_getElem?_eq_some.1 hmem⟩
    · rintro ⟨-, hy, terms', hterms', bytes, hbytes⟩
      cases hterms.symm.trans hterms'
      exact List.mem_map.2 ⟨(y.1, bytes), Std.ExtTreeMap.mem_toList_iff_getElem?_eq_some.2 hbytes,
        Prod.ext rfl hy.symm⟩
  · cases h
    exact iff_of_false List.not_mem_nil fun hy => hagg hy.1

theorem nodup_aggressorsOf {port : Port p} {e : ℕ × ℕ} {l : List (ℕ × ℕ)}
    (h : aggressorsOf port e = some l) : l.Nodup := by
  rw [aggressorsOf] at h
  split_ifs at h
  · obtain ⟨terms, -, rfl⟩ := Option.map_eq_some_iff.1 h
    refine List.pairwise_map.2 (Std.ExtTreeMap.distinct_keys_toList.imp fun {a b} hab heq => hab ?_)
    exact Std.LawfulEqOrd.compare_eq_iff_eq.2 (Prod.ext_iff.1 heq).1
  · cases h
    exact List.nodup_nil

section Aggressors

variable {port : Port p} {agg : List (ℕ × ℕ)}

theorem mem_aggressors (h : aggressors port = some agg) (y : ℕ × ℕ) :
    y ∈ agg ↔ port.Aggressor y.2 ∧ port.Uses y.2 y.1 := by
  obtain ⟨ls, hls, rfl⟩ := Option.map_eq_some_iff.1 h
  rw [List.mem_insertionSort, mem_flatten_of_mapM hls]
  constructor
  · rintro ⟨⟨app, usage⟩, hmem, l, hl, hy⟩
    obtain ⟨hagg, happ, huses⟩ := (mem_aggressorsOf hl).1 hy
    rw [happ]
    exact ⟨⟨usage, Std.ExtTreeMap.mem_toList_iff_getElem?_eq_some.1 hmem, hagg⟩, huses⟩
  · rintro ⟨⟨usage, husage, hagg⟩, huses⟩
    have hmem := Std.ExtTreeMap.mem_toList_iff_getElem?_eq_some.2 husage
    obtain ⟨l, hl⟩ := exists_of_mapM hls hmem
    exact ⟨_, hmem, l, hl, (mem_aggressorsOf hl).2 ⟨hagg, rfl, huses⟩⟩

theorem nodup_aggressors (h : aggressors port = some agg) : agg.Nodup := by
  obtain ⟨ls, hls, rfl⟩ := Option.map_eq_some_iff.1 h
  refine (List.perm_insertionSort PairLe ls.flatten).nodup_iff.2
    (nodup_flatten_of_mapM hls (fun _ _ _ => nodup_aggressorsOf) ?_)
  refine Std.ExtTreeMap.distinct_keys_toList.imp fun {a b} hab l l' hl hl' y hy hy' => hab ?_
  rw [Std.LawfulEqOrd.compare_eq_iff_eq, ← ((mem_aggressorsOf hl).1 hy).2.1,
    ((mem_aggressorsOf hl').1 hy').2.1]

theorem nodup_terms_iff (h : aggressors port = some agg) :
    (agg.map Prod.fst).Nodup ↔ ¬ port.Clash := by
  rw [List.nodup_map_iff_inj_on (nodup_aggressors h)]
  constructor
  · rintro hinj ⟨term, app, app', hne, hagg, hagg'⟩
    have heq := hinj (term, app) ((mem_aggressors h _).2 hagg) (term, app')
      ((mem_aggressors h _).2 hagg') rfl
    exact hne (Prod.ext_iff.1 heq).2
  · rintro hclash ⟨term, app⟩ hx ⟨term', app'⟩ hy rfl
    by_contra hne
    exact hclash ⟨term, app, app', fun happ => hne (Prod.ext rfl happ),
      (mem_aggressors h _).1 hx, (mem_aggressors h _).1 hy⟩

end Aggressors

/-- The packet of an event makes its port congested, and then there is a clash. -/
def RouterEvent.Clashes (t : Tree p) (e : RouterEvent p) : Prop :=
  e.packet.port ∈ p.outputPorts ∧ ∃ t₁, counted t e = some t₁ ∧ Congests t₁ e.packet.port ∧
    (t₁.ports e.packet.port).Clash

theorem Tree.Exact.congr (h : t.Exact) (hs : t.SameMarks t') : t'.Exact := by
  intro term
  rw [Tree.counter, hs.counter, Tree.markers_congr hs.marks]
  exact h term

theorem Tree.Exact.setMarks_iff {t₁ : Tree p} {c : Std.ExtTreeMap ℕ ℕ} {s : Std.ExtTreeSet ℕ}
    (h : t.Exact) (hs : t.SameMarks t₁) : (t₁.setMarks i c s).Exact ↔ ∀ term,
      Tally.count c term + (if term ∈ t.marks i then 1 else 0) =
        t.counter term + if term ∈ s then 1 else 0 := by
  refine forall_congr' fun term => ?_
  have hset := t₁.markers_setMarks i c s term
  have hterm := h term
  rw [Tree.markers_congr hs.marks, hs.marks] at hset
  rw [Tree.counter, Tree.setMarks_counter]
  omega

/-- **An event keeps the counters exact if and only if it has no clash.** -/
theorem counter_iff {e : RouterEvent p} (h : t.Marked) (hexact : t.Exact)
    (he : routerEvent t now sv e = some (t', sv', outs)) : t'.Exact ↔ ¬ e.Clashes t := by
  obtain ⟨hport, rfl, -, -⟩ | ⟨hport, t₁, ht₁, hcases⟩ := routerEvent_cases he
  · exact iff_of_true hexact fun hclash => hport hclash.1
  have honly := counted_onlyCounts ht₁
  have h₁ := h.congr honly.toSameMarks honly.flags
  have hexact₁ := hexact.congr honly.toSameMarks
  have hclashes : e.Clashes t ↔ Congests t₁ e.packet.port ∧ (t₁.ports e.packet.port).Clash := by
    constructor
    · rintro ⟨-, t₂, ht₂, hclash⟩
      cases ht₁.symm.trans ht₂
      exact hclash
    · exact fun hclash => ⟨hport, t₁, ht₁, hclash⟩
  rw [hclashes]
  obtain ⟨x, rfl, hput⟩ | ⟨sv₁, hcheck, -⟩ := hcases
  · -- a congested port
    have hcong := hput.congested
    refine iff_of_true ?_ fun hclash => Bool.noConfusion (hcong.symm.trans hclash.1.1)
    obtain ⟨hnew, rfl, -, -⟩ | ⟨rfl, -, -⟩ := hput.cases
    · refine Tree.Exact.congr ?_ (Tree.setNextPossiblePortNormalTime_sameMarks ..).1
      have hzero : t₁.counter x.term = 0 := by
        have hpos := (not_congr h₁.isAbated_iff).1 hnew.1
        omega
      have hnot : x.term ∉ t₁.marks x.port := by
        intro hmem
        have hpos := Tree.markers_pos hmem
        have hle := h₁.markers_le x.term
        omega
      refine (hexact₁.setMarks_iff ⟨rfl, rfl, fun _ => rfl⟩).2 fun term => ?_
      simp only [Tally.count_add, Tally.mem_insert, Tree.counter]
      by_cases hterm : x.term = term
      · subst hterm
        simp [hnot]
      · have hterm' : ¬ term = x.term := fun he => hterm he.symm
        simp [hterm, hterm']
    · exact hexact₁.congr (Tree.setNextPossiblePortNormalTime_sameMarks ..).1
  · obtain ⟨hc, agg, hagg, rfl, -, -⟩ | ⟨hd, rfl, -, -⟩ | ⟨hc, -, rfl, -, -⟩ :=
      congestionCheck_cases hcheck
    · rw [and_iff_right hc, ← nodup_terms_iff hagg, List.nodup_iff_count_le_one,
        hexact₁.setMarks_iff (t₁.sameMarks_congested ..)]
      refine forall_congr' fun term => ?_
      rw [Tally.count_addAll, h₁.empty _ hc.1, if_neg Std.ExtTreeSet.not_mem_empty, Tree.counter]
      have hmem : term ∈ Tally.insertAll ∅ (agg.map Prod.fst) ↔
        0 < (agg.map Prod.fst).count term := by
        rw [Tally.mem_insertAll, List.count_pos_iff]
        exact or_iff_right Std.ExtTreeSet.not_mem_empty
      simp only [hmem]
      split_ifs <;> omega
    · refine iff_of_true ?_ fun hclash => Bool.noConfusion (hclash.1.1.symm.trans hd.1)
      refine (hexact₁.setMarks_iff (t₁.sameMarks_setPortCongestionState ..)).2 fun term => ?_
      have hle := h₁.count_toList_le e.packet.port term
      rw [count_toList] at hle
      rw [Tally.count_subAll, count_toList, if_neg Std.ExtTreeSet.not_mem_empty]
      rw [Tree.counter] at *
      omega
    · exact iff_of_true hexact₁ fun hclash => hc hclash.1

/-! ### The protocol -/

section Protocol

variable {R : Type} [DecidableEq R]

/-- Routers and terminals, with what each router has sent and the signals on their way. -/
structure Abatement (p : R → RouterParam) where
  routers : ∀ r, Router (p r)
  sent : R → List Out
  inFlight : List Out
  terminals : ℕ → Terminal

/-- The events of the protocol.  A signal is delivered from any place in the list of those on their
way, so in any order, and at any time. -/
inductive AbatementEvent (p : R → RouterParam) where
  | router (r : R) (now : STime) (e : RouterEvent (p r))
  | deliver (k : ℕ) (now : STime)
  | bandwidthCheck (term : ℕ) (now : STime)
  | simAck (term : ℕ) (now : STime)

variable {p : R → RouterParam}

/-- A terminal handles an event. -/
def Abatement.handle (tp : ℕ → TerminalParam) (s : Abatement p) (term : ℕ) (now : STime)
    (e : Event) : Abatement p :=
  { s with
      terminals := update s.terminals term
        (terminalEvent (tp term) (s.terminals term) now e {}).1 }

/-- A router changes and sends signals. -/
def Abatement.send (s : Abatement p) (r : R) (router : Router (p r)) (outs : List Out) :
    Abatement p :=
  { s with
      routers := update s.routers r router
      sent := update s.sent r (s.sent r ++ outs)
      inFlight := s.inFlight ++ outs }

@[simp] theorem Abatement.send_self (s : Abatement p) (r : R) (router : Router (p r))
    (outs : List Out) : (s.send r router outs).routers r = router := update_self ..

theorem Abatement.send_of_ne (s : Abatement p) {r r' : R} (router : Router (p r)) (outs : List Out)
    (h : r' ≠ r) : (s.send r router outs).routers r' = s.routers r' := update_of_ne h ..

/-- The routers and the terminals together. -/
def abatement (p : R → RouterParam) (tp : ℕ → TerminalParam) :
    Machine (Abatement p) (AbatementEvent p) where
  step s
    | .router r now e =>
      if Admissible (s.routers r) e then
        (routerEvent (s.routers r).tree now {} e).map fun x =>
          s.send r ⟨x.1, heldAfter (s.routers r).held e⟩ x.2.2
      else none
    | .deliver k now => (s.inFlight[k]?).map fun o =>
        Abatement.handle tp { s with inFlight := s.inFlight.eraseIdx k } o.term now
          (.signal o.signal)
    | .bandwidthCheck term now => some (s.handle tp term now .bandwidthCheck)
    | .simAck term now => some (s.handle tp term now .simAck)

variable [Fintype R]

/-- Nothing is held, sent or abated; the expiry times may be anything. -/
structure Abatement.Initial (s : Abatement p) : Prop where
  routers : ∀ r, ∃ time portTime vcTime, s.routers r = Router.init time portTime vcTime
  sent : ∀ r, s.sent r = []
  inFlight : s.inFlight = []
  terminals : ∀ term, s.terminals term = Terminal.init

/-- A port of a router marks a terminal. -/
def Abatement.Marks (s : Abatement p) (r : R) (term : ℕ) : Prop :=
  ∃ i, term ∈ (s.routers r).tree.marks i

instance (s : Abatement p) (r : R) (term : ℕ) : Decidable (s.Marks r term) :=
  inferInstanceAs (Decidable (∃ _, _))

/-- **What the protocol is for.** -/
structure Abatement.Orderly (s : Abatement p) : Prop where
  /-- The counter of a terminal is the number of ports that mark it. -/
  counter : ∀ r, (s.routers r).tree.Exact
  /-- A router has sent a terminal one more signal to slow down if it marks it. -/
  sent : ∀ r term, balance term (s.sent r) = if s.Marks r term then 1 else 0
  /-- A port that is not congested marks nothing. -/
  uncongested : ∀ r i, ((s.routers r).tree.ports i).isCongested = false →
    (s.routers r).tree.marks i = ∅
  /-- A terminal counts the routers that mark it, but for the signals on their way. -/
  signals : ∀ term, (s.terminals term).abatementSignalCount + balance term s.inFlight =
    (Finset.univ.filter fun r => s.Marks r term).card
  active : ∀ term, (s.terminals term).Ok
  /-- The query for the bandwidth does not fail. -/
  query : ∀ term, currentInjectionBandwidthCoef (s.terminals term) ≠ none

/-- The invariant of every run. -/
structure Abatement.Inv (s : Abatement p) : Prop where
  marked : ∀ r, (s.routers r).tree.Marked
  sent : ∀ r term, balance term (s.sent r) = (s.routers r).tree.abated term
  signals : ∀ term, (s.terminals term).abatementSignalCount + balance term s.inFlight =
    ∑ r, (s.routers r).tree.abated term
  active : ∀ term, (s.terminals term).Ok

/-- The event of a router is one with a clash. -/
def Clashes (s : Abatement p) : AbatementEvent p → Prop
  | .router r _ e => e.Clashes (s.routers r).tree
  | _ => False

theorem terminalEvent_count {s : Terminal} (tp : TerminalParam) (now : STime) (e : Event)
    (sv : TerminalSaved) : (terminalEvent tp s now e sv).1.abatementSignalCount =
      s.abatementSignalCount + match e with
        | .signal signal => signal.weight
        | _ => 0 := by
  match e with
  | .signal (.abate _) =>
    simp only [terminalEvent, receiveAbatementSignal, Signal.weight]
    split_ifs <;> rfl
  | .signal .normal =>
    simp only [terminalEvent, receiveNormalSignal, Signal.weight]
    split_ifs <;> rfl
  | .bandwidthCheck => exact (add_zero _).symm
  | .simAck => exact (add_zero _).symm

theorem Terminal.Ok.query {s : Terminal} (h : s.Ok) :
    Congestion.currentInjectionBandwidthCoef s ≠ none := by
  by_cases hactive : s.isAbatementActive = true
  · have hbound : ∀ c : ℚ, (if 1 < (if c < 1 / 100 then 1 / 100 else c) then 1
        else (if c < 1 / 100 then 1 / 100 else c)) ≤ 1 ∧
        0 < (if 1 < (if c < 1 / 100 then 1 / 100 else c) then 1
          else (if c < 1 / 100 then 1 / 100 else c)) := by
      intro c
      split_ifs <;> constructor <;> linarith
    simp only [Congestion.currentInjectionBandwidthCoef, not_true, hactive, if_false, h.1 hactive,
      if_true, hbound, and_self]
    exact Option.some_ne_none _
  · rw [Congestion.currentInjectionBandwidthCoef, if_pos hactive]
    exact Option.some_ne_none _

/-! ### Runs -/

variable {tp : ℕ → TerminalParam} {s s' : Abatement p}

omit [DecidableEq R] in
theorem Abatement.Initial.inv (h : s.Initial) : s.Inv ∧ ∀ r, (s.routers r).tree.Exact := by
  have hzero : ∀ r term, (s.routers r).tree.counter term = 0 := by
    intro r term
    obtain ⟨time, portTime, vcTime, hr⟩ := h.routers r
    rw [hr]
    exact Tally.count_empty
  have hmarked : ∀ r, (s.routers r).tree.Marked := by
    intro r
    obtain ⟨time, portTime, vcTime, hr⟩ := h.routers r
    rw [hr]
    exact Tree.Marked.init time portTime vcTime
  have habated : ∀ r term, (s.routers r).tree.abated term = 0 := by
    intro r term
    rw [Tree.abated, if_neg]
    rw [(hmarked r).isAbated_iff, hzero]
    exact lt_irrefl 0
  refine ⟨⟨hmarked, fun r term => ?_, fun term => ?_, fun term => ?_⟩, fun r term => ?_⟩
  · rw [h.sent, habated, balance_nil]
  · simp [h.terminals, h.inFlight, habated, Terminal.init]
  · rw [h.terminals]
    exact Terminal.Ok.init
  · have hle := (hmarked r).markers_le term
    have h0 := hzero r term
    omega

theorem Abatement.Inv.router {r : R} {e : RouterEvent (p r)} {t' : Tree (p r)}
    (h : s.Inv) (held : List (Packet (p r)))
    (he : routerEvent (s.routers r).tree now {} e = some (t', sv', outs)) :
    (s.send r ⟨t', held⟩ outs).Inv where
  marked r' := by
    by_cases hr : r' = r
    · subst hr
      rw [Abatement.send_self]
      exact (h.marked r').routerEvent he
    · rw [Abatement.send_of_ne _ _ _ hr]
      exact h.marked r'
  sent r' term := by
    by_cases hr : r' = r
    · subst hr
      have hbalance := balance_routerEvent term (h.marked r') he
      have hsent := h.sent r' term
      simp only [Abatement.send, update_self, balance_append]
      omega
    · simp only [Abatement.send, update_of_ne hr]
      exact h.sent r' term
  signals term := by
    have hbalance := balance_routerEvent term (h.marked r) he
    have hsum := LpSystem.sum_update (fun r (x : Router (p r)) => x.tree.abated term) s.routers
      (Finset.mem_univ r) ⟨t', held⟩
    have hsignals := h.signals term
    simp only [Abatement.send, balance_append] at hsum ⊢
    omega
  active := h.active

omit [DecidableEq R] in
/-- A terminal handles an event; what it adds to its count is not on its way any more. -/
theorem Abatement.Inv.handle (h : s.Inv) (term : ℕ) (now : STime) (e : Event)
    (hbalance : ∀ term', balance term' outs + (if term = term' then
      (match e with | .signal signal => signal.weight | _ => 0) else 0) = balance term'
        s.inFlight) :
    (Abatement.handle tp { s with inFlight := outs } term now e).Inv where
  marked := h.marked
  sent := h.sent
  signals term' := by
    have hsignals := h.signals term'
    have hb := hbalance term'
    by_cases hterm : term' = term
    · subst hterm
      rw [if_pos rfl] at hb
      simp only [Abatement.handle, update_self, terminalEvent_count]
      omega
    · rw [if_neg fun he => hterm he.symm] at hb
      simp only [Abatement.handle, update_of_ne hterm]
      omega
  active term' := by
    by_cases hterm : term' = term
    · subst hterm
      simp only [Abatement.handle, update_self]
      exact (h.active term').event (tp term') now e
    · simp only [Abatement.handle, update_of_ne hterm]
      exact h.active term'

/-- **What a step keeps**: the invariant, and the exactness of the counters exactly if there is no
clash. -/
theorem Abatement.Inv.step {l : AbatementEvent p} (h : s.Inv)
    (hs : (abatement p tp).step s l = some s') : s'.Inv ∧
      ((∀ r, (s.routers r).tree.Exact) → ((∀ r, (s'.routers r).tree.Exact) ↔ ¬ Clashes s l)) := by
  cases l with
  | router r now e =>
    simp only [abatement] at hs
    split_ifs at hs with hadm
    obtain ⟨⟨t', sv', outs⟩, he, rfl⟩ := Option.map_eq_some_iff.1 hs
    refine ⟨h.router _ he, fun hexact => ?_⟩
    have hr := counter_iff (h.marked r) (hexact r) he
    constructor
    · intro hall
      have hexact' := hall r
      rw [Abatement.send_self] at hexact'
      exact hr.1 hexact'
    · intro hclash r'
      by_cases hr' : r' = r
      · subst hr'
        rw [Abatement.send_self]
        exact hr.2 hclash
      · rw [Abatement.send_of_ne _ _ _ hr']
        exact hexact r'
  | deliver k now =>
    obtain ⟨o, ho, rfl⟩ := Option.map_eq_some_iff.1 hs
    refine ⟨h.handle o.term now (.signal o.signal) fun term' => ?_, fun hexact =>
      iff_of_true hexact id⟩
    rw [balance_eraseIdx ho]
    exact sub_add_cancel _ _
  | bandwidthCheck term now =>
    cases hs
    refine ⟨h.handle term now .bandwidthCheck fun term' => ?_, fun hexact => iff_of_true hexact id⟩
    simp
  | simAck term now =>
    cases hs
    refine ⟨h.handle term now .simAck fun term' => ?_, fun hexact => iff_of_true hexact id⟩
    simp

omit [DecidableEq R] in
/-- With exact counters the invariant is what the protocol is for. -/
theorem Abatement.Inv.orderly (h : s.Inv) (hexact : ∀ r, (s.routers r).tree.Exact) : s.Orderly := by
  have hmarks : ∀ r term, (s.routers r).tree.IsAbatedTerminal term ↔ s.Marks r term := by
    intro r term
    rw [(h.marked r).isAbated_iff, hexact r term, Tree.markers, Finset.card_pos]
    constructor
    · rintro ⟨i, hi⟩
      exact ⟨i, (Finset.mem_filter.1 hi).2⟩
    · rintro ⟨i, hi⟩
      exact ⟨i, Finset.mem_filter.2 ⟨Finset.mem_univ i, hi⟩⟩
  have habated : ∀ r term, (s.routers r).tree.abated term = if s.Marks r term then 1 else 0 := by
    intro r term
    simp only [Tree.abated, hmarks]
  refine ⟨hexact, fun r term => (h.sent r term).trans (habated r term), fun r i =>
    (h.marked r).empty i,
    fun term => (h.signals term).trans ?_, h.active, fun term => (h.active term).query⟩
  simp only [habated]
  rw [Finset.card_filter]
  push_cast
  rfl

/-- **The abatement protocol.**  Every state of a run is orderly if and only if no event of the run
is one with a clash. -/
theorem orderly_iff (p : R → RouterParam) (tp : ℕ → TerminalParam) {s s' : Abatement p}
    {ls : List (AbatementEvent p)} (hs : s.Initial) (hrun : (abatement p tp).run s ls = some s') :
    (abatement p tp).Along Abatement.Orderly s ls ↔
      (abatement p tp).Meets (fun s l => ¬ Clashes s l) s ls := by
  obtain ⟨hinv, hexact⟩ := hs.inv
  clear hs
  constructor
  · intro halong
    induction ls generalizing s with
    | nil => exact trivial
    | cons l ls ih =>
      obtain ⟨s₁, hstep, hrest⟩ := Machine.run_cons_eq_some.1 hrun
      obtain ⟨hinv₁, hiff⟩ := hinv.step hstep
      have halong₁ := halong.2 s₁ hstep
      refine ⟨(hiff hexact).1 halong₁.head.counter, fun s₂ hs₂ => ?_⟩
      cases hstep.symm.trans hs₂
      exact ih hrest hinv₁ halong₁.head.counter halong₁
  · refine Machine.along_of_meets (I := fun s => s.Inv ∧ ∀ r, (s.routers r).tree.Exact) ?_
      (fun s h => h.1.orderly h.2) ⟨hinv, hexact⟩
    intro s l s' h hclash hstep
    obtain ⟨hinv', hiff⟩ := h.1.step hstep
    exact ⟨hinv', (hiff h.2).2 hclash⟩

/-! ### A positive threshold -/

omit [Fintype R] [DecidableEq R] in
/-- An application is an aggressor only if all the packets are its own, so there are no two. -/
theorem Counts.not_clash {p : RouterParam} {l : List (Packet p)} {port : Port p}
    (h : Counts l port.toNode) (hpos : 0 < p.singlePortAggressorUsageThreshold) : ¬ port.Clash := by
  have hall : ∀ app, port.Aggressor app →
      0 < port.packetCount ∧ port.packetCount ≤ Tally.weigh Packet.app Packet.size l app := by
    rintro app ⟨usage, husage, hagg⟩
    have hcast : (0 : ℚ) < ((usage / port.packetCount : ℕ) : ℚ) := lt_of_lt_of_le hpos hagg
    have hdiv : 0 < usage / port.packetCount := by exact_mod_cast hcast
    have hcount := h.apps.count app
    rw [Tally.count, husage, Option.getD_some] at hcount
    rw [← hcount]
    exact Nat.div_pos_iff.1 hdiv
  rintro ⟨term, app, app', hne, ⟨hagg, -⟩, hagg', -⟩
  have hle := Tally.weigh_add_weigh_le Packet.app Packet.size l hne
  have hpackets : port.packetCount = (l.map Packet.size).sum := h.packets
  have h1 := hall app hagg
  have h2 := hall app' hagg'
  omega

omit [Fintype R] in
/-- **With a positive threshold there are no clashes.** -/
theorem meets_not_clashes (hpos : ∀ r, 0 < (p r).singlePortAggressorUsageThreshold)
    {ls : List (AbatementEvent p)} (hs : s.Initial) (hrun : (abatement p tp).run s ls = some s') :
    (abatement p tp).Meets (fun s l => ¬ Clashes s l) s ls := by
  have hinv : ∀ r, (s.routers r).Inv := by
    intro r
    obtain ⟨time, portTime, vcTime, hr⟩ := hs.routers r
    rw [hr]
    exact Router.Inv.init time portTime vcTime
  clear hs
  induction ls generalizing s with
  | nil => exact trivial
  | cons l ls ih =>
    obtain ⟨s₁, hstep, hrest⟩ := Machine.run_cons_eq_some.1 hrun
    have hboth : ¬ Clashes s l ∧ ∀ r, (s₁.routers r).Inv := by
      cases l with
      | router r now e =>
        simp only [abatement] at hstep
        split_ifs at hstep with hadm
        obtain ⟨x, hx, rfl⟩ := Option.map_eq_some_iff.1 hstep
        constructor
        · rintro ⟨hport, t₁, ht₁, -, hclash⟩
          obtain ⟨l, hl⟩ : ∃ l, t₁.Holding l := by
            cases e with
            | received x =>
              cases ht₁
              exact ⟨_, (hinv r).holding.enqueue x⟩
            | forwarded x =>
              obtain ⟨hdequeue, hhold⟩ := ((hinv r).holding_of_mem hadm hport).dequeue
              cases hdequeue.symm.trans ht₁
              exact ⟨_, hhold⟩
          exact (hl.port _).not_clash (hpos r) hclash
        · intro r'
          by_cases hr : r' = r
          · subst hr
            rw [Abatement.send_self]
            refine (hinv r').step (m := (now, e)) ?_
            simp only [router]
            rw [if_pos hadm, hx]
            rfl
          · rw [Abatement.send_of_ne _ _ _ hr]
            exact hinv r'
      | deliver k now =>
        obtain ⟨o, -, rfl⟩ := Option.map_eq_some_iff.1 hstep
        exact ⟨id, hinv⟩
      | bandwidthCheck term now =>
        cases hstep
        exact ⟨id, hinv⟩
      | simAck term now =>
        cases hstep
        exact ⟨id, hinv⟩
    refine ⟨hboth.1, fun s₂ hs₂ => ?_⟩
    cases hstep.symm.trans hs₂
    exact ih hrest hboth.2

end Protocol

/-! ### Two aggressors of one terminal -/

/-- Nothing has happened. -/
def Abatement.new (p : Unit → RouterParam) : Abatement p where
  routers _ := Router.init 0 (fun _ => 0) fun _ _ => 0
  sent _ := []
  inFlight := []
  terminals _ := Terminal.init

theorem Abatement.new_initial (p : Unit → RouterParam) : (Abatement.new p).Initial :=
  ⟨fun _ => ⟨0, _, _, rfl⟩, fun _ => rfl, rfl, fun _ => rfl⟩

/-- The run of a router whose port becomes congested, ceases to be so and becomes so again. -/
theorem orderly_iff_onePort :
    ((abatement (fun _ => onePort) fun _ => ⟨1, 1, 1⟩).run (Abatement.new _)
      (onePort.events.map fun e => .router () e.1 e.2)).isSome = true ∧
    (abatement (fun _ => onePort) fun _ => ⟨1, 1, 1⟩).Along Abatement.Orderly (Abatement.new _)
      (onePort.events.map fun e => .router () e.1 e.2) := by
  have hsome : ((abatement (fun _ => onePort) fun _ => ⟨1, 1, 1⟩).run (Abatement.new _)
      (onePort.events.map fun e => .router () e.1 e.2)).isSome = true := by
    decide +kernel
  obtain ⟨s, hs⟩ := Option.isSome_iff_exists.1 hsome
  have hpos : ∀ r : Unit, 0 < ((fun _ => onePort) r).singlePortAggressorUsageThreshold := by
    intro r
    norm_num [onePort]
  exact ⟨hsome, (orderly_iff (fun _ => onePort) _ (Abatement.new_initial _) hs).2
    (meets_not_clashes hpos (Abatement.new_initial _) hs)⟩

/-- A router with one port, where every application is an aggressor. -/
def strictPort : RouterParam :=
  { onePort with
    singlePortDecongestionThreshold := 1 / 4
    singlePortAggressorUsageThreshold := 0 }

/-- A packet of 30 bytes of an application of terminal 0. -/
def strictPort.packet (app : ℕ) : Packet strictPort :=
  ⟨30, by decide, ⟨0, Nat.one_pos⟩, ⟨0, Nat.one_pos⟩, 0, app⟩

/-- Two applications of the terminal have packets when the port becomes congested. -/
def strictPort.events : List (AbatementEvent fun _ : Unit => strictPort) :=
  [.router () 0 (.received (strictPort.packet 0)), .router () 1 (.received (strictPort.packet 1)),
    .router () 1000 (.forwarded (strictPort.packet 0)),
    .router () 2000 (.forwarded (strictPort.packet 1))]

/-- **Marked twice, unmarked once**: when all packets have left no port marks the terminal, but it
has been sent `ABATE` and not `NORMAL`. -/
theorem two_aggressors_not_orderly :
    strictPort.singlePortDecongestionThreshold ≤ strictPort.singlePortCongestionThreshold ∧
    ∃ s, (abatement (fun _ => strictPort) fun _ => ⟨1, 1, 1⟩).run (Abatement.new _)
    strictPort.events =
      some s ∧ ¬ s.Orderly := by
  refine ⟨by decide +kernel, ?_⟩
  have hfacts : ((abatement (fun _ => strictPort) fun _ => ⟨1, 1, 1⟩).run (Abatement.new _)
      strictPort.events).map (fun s => decide (balance 0 (s.sent ()) = 1 ∧ ¬ s.Marks () 0)) =
      some true := by
    decide +kernel
  obtain ⟨s, hs, hdec⟩ := Option.map_eq_some_iff.1 hfacts
  obtain ⟨hsent, hmarks⟩ := of_decide_eq_true hdec
  refine ⟨s, hs, fun horderly => ?_⟩
  have hbalance := horderly.sent () 0
  rw [if_neg hmarks, hsent] at hbalance
  cases hbalance

end CodesSim.Congestion
