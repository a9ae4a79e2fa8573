import CodesSim.Storage.Requests

/-!
# Undoing an event of the local storage LP

The reverse handlers of the local storage LP, after the handlers.  Every event is undone, with two
exceptions (`lsm_undone_iff`).

* The completion of one request takes the first request of a lane; the reverse puts it back behind
  the others of the lane.  This is seen when they are not all the same.
* The lane of a request that has to wait is a field of the event that `lsm_io_event` leaves as it
  finds it.  There may be no such lane.
-/

namespace CodesSim.Storage

open Outcome

/-! ### Categories -/

section Categories

variable {category : String} {l l' : List LsmStats} {i : ℕ}

/-- The place of a category, from the front, is the first that is free or has its name. -/
def Fits (category : String) (st : LsmStats) : Prop := st.category = "" ∨ category = st.category

theorem findStats_eq_some (h : findStats category l = some (i, l')) :
    ∃ st, l[i]? = some st ∧ Fits category st ∧
      (∀ j < i, ∀ st, l[j]? = some st → ¬Fits category st) ∧
      l' = l.set i { st with category := category } := by
  unfold findStats at h
  obtain ⟨i', hi, heq⟩ := Option.map_eq_some_iff.1 h
  obtain ⟨rfl, rfl⟩ := Prod.mk.inj heq
  obtain ⟨hlt, hfits, hfirst⟩ := List.findIdx?_eq_some_iff_getElem.1 hi
  have hfits : Fits category l[i'] := by simpa [Fits] using hfits
  refine ⟨l[i'], List.getElem?_eq_getElem hlt, hfits, fun j hj st hst => ?_, ?_⟩
  · obtain ⟨hjl, rfl⟩ := List.getElem?_eq_some_iff.1 hst
    simpa [Fits] using hfirst j hj
  · rw [List.modify_eq_set_get _ hlt, List.get_eq_getElem]
    congr 1
    split_ifs with hempty
    · rfl
    · rw [hfits.resolve_left hempty]

/-- After a transfer the category is found where it was put. -/
theorem findStats_set {st : LsmStats} (h : findStats category l = some (i, l'))
    (hst : st.category = category) : findStats category (l'.set i st) = some (i, l'.set i st) := by
  obtain ⟨st₀, hi, -, hfirst, rfl⟩ := findStats_eq_some h
  obtain ⟨hlt, -⟩ := List.getElem?_eq_some_iff.1 hi
  have hidx : ((l.set i { st₀ with category := category }).set i st).findIdx?
      (fun st => decide (st.category = "") || decide (category = st.category)) = some i := by
    refine List.findIdx?_eq_some_iff_getElem.2 ⟨by simpa using hlt, by simp [hst], fun j hj => ?_⟩
    have hne := hfirst j hj l[j] (List.getElem?_eq_getElem (by omega))
    rw [List.getElem_set_ne (by omega), List.getElem_set_ne (by omega)]
    simpa [Fits] using hne
  unfold findStats
  rw [hidx]
  have hlen : i < ((l.set i { st₀ with category := category }).set i st).length := by
    simpa using hlt
  have hname : (if st.category = "" then { st with category := category } else st) = st := by
    split_ifs
    · rw [← hst]
    · rfl
  rw [Option.map_some, List.modify_eq_set_get _ hlen, List.get_eq_getElem, List.getElem_set_self,
    hname, List.set_set]

end Categories

/-! ### A transfer -/

section Transfer

variable {d : DiskModel} {now : STime} {data : Data} {s s' : State} {m : Msg} {e e' : Ev}

/-- The counters of a place are the same, and a name stays. -/
def SameCounters (st st' : LsmStats) : Prop :=
  st = { st' with category := st.category } ∧ (st.category ≠ "" → st'.category = st.category)

/-- The statistics are the same, but that a free place may have got a name. -/
def SameStats (l l' : List LsmStats) : Prop :=
  l'.length = l.length ∧
    ∀ (i : ℕ) (st st' : LsmStats), l[i]? = some st → l'[i]? = some st' → SameCounters st st'

theorem SameStats.refl (l : List LsmStats) : SameStats l l :=
  ⟨rfl, fun i st st' h h' => by cases h.symm.trans h'; exact ⟨rfl, fun _ => rfl⟩⟩

theorem findStats_sameStats {category : String} {l l' : List LsmStats} {i : ℕ}
    (h : findStats category l = some (i, l')) : SameStats l l' := by
  obtain ⟨st₀, hi, hfits, -, rfl⟩ := findStats_eq_some h
  refine ⟨List.length_set, fun j st st' hst hst' => ?_⟩
  rw [List.getElem?_set] at hst'
  split_ifs at hst' with hij hlt
  · cases hij
    cases hi.symm.trans hst
    cases hst'
    exact ⟨rfl, fun hne => hfits.resolve_left hne⟩
  · cases hst.symm.trans hst'
    exact ⟨rfl, fun _ => rfl⟩

/-- What the reverse of a transfer brings back. -/
def State.unstarted (s' s : State) (stats : List LsmStats) : State :=
  { s' with
    nextIdle := s.nextIdle
    stats := stats
    currentObject := s.currentObject
    currentOffset := s.currentOffset }

/-- **Undoing a transfer** in a state with the statistics it has left. -/
theorem rev_ioRequest (h : handleIoRequest d now data e = .ok e') :
    ∃ stats, SameStats e.s.stats stats ∧ ∀ s', s'.stats = e'.s.stats →
      handleRevIoRequest data s' e'.m = .ok (s'.unstarted e.s stats) := by
  obtain ⟨i, stats, stat, stat', nextIdle, delay, hfind, hstat, hcat, rfl⟩ := ioRequest_cases h
  refine ⟨stats, findStats_sameStats hfind, fun s' hs' => ?_⟩
  have hname : stat.category = data.category := by
    obtain ⟨st₀, hi, -, -, rfl⟩ := findStats_eq_some hfind
    obtain ⟨hlt, -⟩ := List.getElem?_eq_some_iff.1 hi
    rw [List.getElem?_set_self hlt] at hstat
    rw [← Option.some.inj hstat]
  have hagain := findStats_set hfind (hcat.trans hname)
  unfold handleRevIoRequest
  rw [hs', State.started]
  simp only [hagain, Msg.save, List.set_set]
  obtain ⟨hlt, rfl⟩ := List.getElem?_eq_some_iff.1 hstat
  rw [List.set_getElem_self]
  rfl

end Transfer

/-! ### Events -/

/-- What the reverse of an event has to bring back. -/
structure Restored (s s' : State) : Prop where
  nextIdle : s'.nextIdle = s.nextIdle
  currentObject : s'.currentObject = s.currentObject
  currentOffset : s'.currentOffset = s.currentOffset
  stats : SameStats s.stats s'.stats
  activeCount : s'.activeCount = s.activeCount
  freelist : s'.freelist = s.freelist
  queues : s'.queues = s.queues

/-- An event of which the lane exists is undone by its reverse.  There is nothing to undo of an
event in which an assertion fails, or for which the disk has no rates. -/
def Undone (d : DiskModel) (self : Lpid) (now : STime) (s : State) (m : Msg) : Prop :=
  lsmEvent d self now s m ≠ .error .noLane ∧
    ∀ e, lsmEvent d self now s m = .ok e →
      ∃ s', lsmRevEvent e.s e.m = .ok s' ∧ Restored s s'

/-- The events that are not undone, with a scheduler: a request that has to wait in a lane that does
not exist, and a completion, if it is handled, after which a request is started out of a lane in
which others, that are not all like it, wait behind it. -/
def Lost (d : DiskModel) (self : Lpid) (now : STime) (s : State) (m : Msg) : Prop :=
  s.useSched = true ∧
    (m.event.IsRequest ∧ s.activeCount ≠ 0 ∧ s.lane? m.prio = none ∨
      ¬m.event.IsRequest ∧ (∃ e, lsmEvent d self now s m = .ok e) ∧ s.activeCount ≠ 1 ∧
        ∃ lane next rest, s.firstWaiting = some (lane, next, rest) ∧ rest ++ [next] ≠ next :: rest)

section Undo

variable {d : DiskModel} {self : Lpid} {now : STime} {s s' : State} {m : Msg} {e e' : Ev}

theorem lane?_of_lt {lane : ℕ} (h : lane < s.numPrios) : s.lane? lane = some lane := by
  unfold State.lane?
  rw [if_pos ⟨by omega, by omega⟩, Int.toNat_natCast]

theorem ioRequest_lanes (data : Data) (e : Ev) :
    handleIoRequest d now data e ≠ .error .noLane := by
  intro h
  unfold handleIoRequest transferTimeTable at h
  dsimp only at h
  split at h
  · cases h
  split at h
  · cases h
  split at h
  · rename_i heq
    split at heq
    · cases heq
      cases h
    · cases heq
  · cases h

theorem schedNew_lanes_iff :
    handleIoSchedNew d now ⟨s, m, []⟩ ≠ .error .noLane ↔
      ¬(s.activeCount ≠ 0 ∧ s.lane? m.prio = none) := by
  unfold handleIoSchedNew
  dsimp only
  split_ifs with hidle
  · exact iff_of_true (fun h => ioRequest_lanes _ _ (map_eq_error h)) fun h => h.1 hidle
  · cases hlane : s.lane? m.prio with
    | none => simp [hidle]
    | some lane => simp

theorem completion_lanes : handleIoCompletion d self now e ≠ .error .noLane := by
  intro h
  unfold handleIoCompletion handleIoSchedCompl at h
  dsimp only at h
  split_ifs at h
  · split at h
    · cases h
    · exact ioRequest_lanes _ _ (map_eq_error h)
  · cases h

/-- **A request** on a disk without a scheduler. -/
theorem ioRequest_undone (h : handleIoRequest d now m.data ⟨s, m, []⟩ = .ok e) :
    ∃ s', handleRevIoRequest m.data e.s e.m = .ok s' ∧ Restored s s' := by
  obtain ⟨stats, hstats, hrev⟩ := rev_ioRequest h
  refine ⟨_, hrev e.s rfl, ?_⟩
  obtain ⟨i, stats', stat, stat', nextIdle, delay, -, -, -, rfl⟩ := ioRequest_cases h
  exact ⟨rfl, rfl, rfl, hstats, rfl, rfl, rfl⟩

/-- **A request** on a disk with a scheduler. -/
theorem schedNew_undone (h : handleIoSchedNew d now ⟨s, m, []⟩ = .ok e) :
    ∃ s', handleRevIoSchedNew e.s e.m = .ok s' ∧ Restored s s' := by
  unfold handleIoSchedNew at h
  dsimp only at h
  unfold handleRevIoSchedNew
  split_ifs at h with hidle
  · obtain ⟨u, hu, rfl⟩ := map_eq_ok h
    obtain ⟨stats, hstats, hrev⟩ := rev_ioRequest hu
    obtain ⟨i, stats', stat, stat', nextIdle, delay, -, -, -, rfl⟩ := ioRequest_cases hu
    let u := ((s.started (stats'.set i stat') nextIdle m.data).addActive 1).addActive (-1)
    have hactive : u.activeCount = s.activeCount := by simp [u, State.addActive, State.started]
    have hback := hrev u rfl
    refine ⟨u.unstarted s stats, ?_, rfl, rfl, rfl, hstats, hactive, rfl, rfl⟩
    exact (if_pos (hactive.trans hidle)).trans hback
  · cases hlane : s.lane? m.prio with
    | none =>
      rw [hlane] at h
      cases h
    | some lane =>
      rw [hlane] at h
      cases h
      have hback : ((s.setQueue lane (s.queues lane ++ [m.data])).addActive 1).addActive (-1) =
          s.setQueue lane (s.queues lane ++ [m.data]) := by
        simp [State.addActive, State.setQueue]
      have hlane' : (s.setQueue lane (s.queues lane ++ [m.data])).lane? m.prio = some lane := hlane
      have hidle' : (s.setQueue lane (s.queues lane ++ [m.data])).activeCount ≠ 0 := hidle
      dsimp only
      rw [hback, if_neg hidle', hlane']
      refine ⟨s, ?_, rfl, rfl, rfl, SameStats.refl _, rfl, rfl, rfl⟩
      simp [State.setQueue]

theorem push_pop {st : RcStack.Stack STime Data} {data : Data} (hmode : st.mode ≠ .nonopt) :
    RcStack.pop (RcStack.push now data true st).1 = some (data, st) := by
  simp [RcStack.push, RcStack.pop, hmode]

/-- **A completion** that starts the first request of a lane. -/
theorem schedCompl_undone_iff {lane : ℕ} {next : Data} {rest : List Data}
    (hmode : s.freelist.mode ≠ .nonopt) (hactive : s.activeCount ≠ 1)
    (hwaiting : s.firstWaiting = some (lane, next, rest)) {outs : List Out}
    (h : handleIoSchedCompl d now ⟨s.draw 1, m, outs⟩ = .ok e) :
    (∃ s', handleRevIoSchedCompl e.s e.m = .ok s' ∧ Restored s (s'.draw (-1))) ↔
      rest ++ [next] = next :: rest := by
  obtain ⟨hlt, hqueue, -⟩ := firstWaiting_eq_some hwaiting
  have hne : ((s.draw 1).addActive (-1)).activeCount ≠ 0 := by
    simp only [State.addActive, State.draw]
    omega
  have hwaiting' : ((s.draw 1).addActive (-1)).firstWaiting = some (lane, next, rest) := hwaiting
  unfold handleIoSchedCompl at h
  dsimp only at h
  rw [if_neg hne, hwaiting'] at h
  obtain ⟨u, hu, rfl⟩ := map_eq_ok h
  obtain ⟨stats, hstats, hrev⟩ := rev_ioRequest hu
  obtain ⟨i, stats', stat, stat', nextIdle, delay, -, -, -, rfl⟩ := ioRequest_cases hu
  -- the state after the event, and what its reverse has before it looks at the lane
  let v := (((s.draw 1).addActive (-1)).setQueue lane rest).started (stats'.set i stat')
    nextIdle next
  let t := v.setFreelist (RcStack.push now next true s.freelist).1
  let w := (t.setFreelist s.freelist).unstarted s stats
  have hne' : t.activeCount ≠ 0 := hne
  have hpop : RcStack.pop t.freelist = some (next, s.freelist) := push_pop hmode
  have hlane : w.lane? lane = some lane := lane?_of_lt hlt
  have hundo : handleRevIoSchedCompl t
      ((m.setPrio lane).save (((s.draw 1).addActive (-1)).setQueue lane rest) stat) =
        .ok ((w.setQueue lane (w.queues lane ++ [next])).addActive 1) := by
    unfold handleRevIoSchedCompl
    rw [if_neg hne', hpop]
    simp only [hrev (t.setFreelist s.freelist) rfl, Except.bind]
    dsimp only [Msg.save, Msg.setPrio]
    have hlane' : ((t.setFreelist s.freelist).unstarted
        (((s.draw 1).addActive (-1)).setQueue lane rest) stats).lane? lane = some lane := hlane
    rw [hlane']
    rfl
  have hqueues : Function.update s.queues lane (rest ++ [next]) = s.queues ↔
      rest ++ [next] = next :: rest := by
    rw [Function.update_eq_self_iff, hqueue]
  change (∃ s', handleRevIoSchedCompl t _ = .ok s' ∧ _) ↔ _
  rw [hundo, ← hqueues]
  have hsame : (w.setQueue lane (w.queues lane ++ [next])).queues =
      Function.update s.queues lane (rest ++ [next]) := by
    simp [w, t, v, State.setQueue, State.unstarted, State.setFreelist, State.started,
      State.addActive, State.draw]
  constructor
  · rintro ⟨s', hs', hr⟩
    obtain rfl := Except.ok.inj hs'
    exact hsame.symm.trans hr.queues
  · intro heq
    refine ⟨_, rfl, rfl, rfl, rfl, hstats, ?_, rfl, hsame.trans heq⟩
    simp [w, t, v, State.setQueue, State.unstarted, State.setFreelist, State.started,
      State.addActive, State.draw]

/-! #### All events -/

theorem lsmRevEvent_request (h : m.event.IsRequest) : lsmRevEvent s m =
    if s.useSched then handleRevIoSchedNew s m else handleRevIoRequest m.data s m := by
  unfold lsmRevEvent
  cases hev : m.event with
  | writeRequest => rfl
  | readRequest => rfl
  | writeCompletion => simp [hev, LsmEvent.IsRequest] at h
  | readCompletion => simp [hev, LsmEvent.IsRequest] at h

theorem lsmRevEvent_completion (h : ¬m.event.IsRequest) :
    lsmRevEvent s m = handleRevIoCompletion s m := by
  unfold lsmRevEvent
  cases hev : m.event with
  | writeRequest => simp [hev, LsmEvent.IsRequest] at h
  | readRequest => simp [hev, LsmEvent.IsRequest] at h
  | writeCompletion => rfl
  | readCompletion => rfl

theorem ioRequest_frame {data : Data} (h : handleIoRequest d now data e = .ok e') :
    e'.m.event = e.m.event ∧ e'.s.useSched = e.s.useSched := by
  obtain ⟨i, stats', stat, stat', nextIdle, delay, -, -, -, rfl⟩ := ioRequest_cases h
  exact ⟨rfl, rfl⟩

theorem schedNew_frame (h : handleIoSchedNew d now e = .ok e') :
    e'.m.event = e.m.event ∧ e'.s.useSched = e.s.useSched := by
  unfold handleIoSchedNew at h
  split_ifs at h
  · obtain ⟨u, hu, rfl⟩ := map_eq_ok h
    have hframe := ioRequest_frame hu
    exact hframe
  · split at h
    · cases h
    · cases h
      exact ⟨rfl, rfl⟩

theorem schedCompl_frame (h : handleIoSchedCompl d now e = .ok e') :
    e'.m.event = e.m.event ∧ e'.s.useSched = e.s.useSched := by
  unfold handleIoSchedCompl at h
  dsimp only at h
  split_ifs at h
  · cases h
    exact ⟨rfl, rfl⟩
  · split at h
    · cases h
    · obtain ⟨u, hu, rfl⟩ := map_eq_ok h
      have hframe := ioRequest_frame hu
      exact hframe

theorem undone_request_iff (hreq : m.event.IsRequest) :
    Undone d self now s m ↔ ¬Lost d self now s m := by
  have hlost : Lost d self now s m ↔
      s.useSched = true ∧ s.activeCount ≠ 0 ∧ s.lane? m.prio = none := by
    simp [Lost, hreq]
  unfold Undone
  rw [hlost, lsmEvent_request hreq]
  by_cases huse : s.useSched = true
  · rw [if_pos huse, schedNew_lanes_iff, and_iff_left]
    · simp [huse]
    · intro e he
      obtain ⟨hev, hsched⟩ := schedNew_frame he
      have hreq' : e.m.event.IsRequest := by rwa [hev]
      rw [lsmRevEvent_request hreq', if_pos (hsched.trans huse)]
      exact schedNew_undone he
  · rw [if_neg huse]
    refine iff_of_true ⟨ioRequest_lanes _ _, fun e he => ?_⟩ fun h => huse h.1
    obtain ⟨hev, hsched⟩ := ioRequest_frame he
    have hreq' : e.m.event.IsRequest := by rwa [hev]
    have hdata : e.m.data = m.data := by
      obtain ⟨i, stats', stat, stat', nextIdle, delay, -, -, -, rfl⟩ := ioRequest_cases he
      rfl
    rw [lsmRevEvent_request hreq', if_neg (by rwa [hsched]), hdata]
    exact ioRequest_undone he

theorem undone_sched_iff (hcompl : ¬m.event.IsRequest) (huse : s.useSched = true)
    (hmode : s.freelist.mode ≠ .nonopt) (outs : List Out) :
    (∀ e, handleIoSchedCompl d now ⟨s.draw 1, m, outs⟩ = .ok e →
      ∃ s', lsmRevEvent e.s e.m = .ok s' ∧ Restored s s') ↔
    ¬((∃ e, handleIoSchedCompl d now ⟨s.draw 1, m, outs⟩ = .ok e) ∧ s.activeCount ≠ 1 ∧
      ∃ lane next rest, s.firstWaiting = some (lane, next, rest) ∧ rest ++ [next] ≠ next ::
      rest) := by
  -- the reverse, with its draw
  have hrev (e : Ev) (he : handleIoSchedCompl d now ⟨s.draw 1, m, outs⟩ = .ok e) :
      (∃ s', lsmRevEvent e.s e.m = .ok s' ∧ Restored s s') ↔
        ∃ s', handleRevIoSchedCompl e.s e.m = .ok s' ∧ Restored s (s'.draw (-1)) := by
    obtain ⟨hev, hsched⟩ := schedCompl_frame he
    have hcompl' : ¬e.m.event.IsRequest := by rwa [hev]
    rw [lsmRevEvent_completion hcompl', handleRevIoCompletion, if_pos (hsched.trans huse)]
    constructor
    · rintro ⟨s', hs', hr⟩
      obtain ⟨u, hu, rfl⟩ := map_eq_ok hs'
      exact ⟨u, hu, hr⟩
    · rintro ⟨u, hu, hr⟩
      exact ⟨u.draw (-1), by rw [hu]; rfl, hr⟩
  by_cases hactive : s.activeCount = 1
  · refine iff_of_true (fun e he => (hrev e he).2 ?_) fun h => h.2.1 hactive
    have hidle : ((s.draw 1).addActive (-1)).activeCount = 0 := by
      simp [State.addActive, State.draw, hactive]
    unfold handleIoSchedCompl at he
    dsimp only at he
    rw [if_pos hidle] at he
    cases he
    refine ⟨_, if_pos hidle, rfl, rfl, rfl, SameStats.refl _, ?_, rfl, rfl⟩
    simp [State.addActive, State.draw]
  · cases hwaiting : s.firstWaiting with
    | none =>
      have hnone (e : Ev) : handleIoSchedCompl d now ⟨s.draw 1, m, outs⟩ ≠ .ok e := by
        intro he
        have hwaiting' : ((s.draw 1).addActive (-1)).firstWaiting = none := hwaiting
        have hbusy : ((s.draw 1).addActive (-1)).activeCount ≠ 0 := by
          simp only [State.addActive, State.draw]
          omega
        unfold handleIoSchedCompl at he
        dsimp only at he
        rw [if_neg hbusy, hwaiting'] at he
        cases he
      exact iff_of_true (fun e he => absurd he (hnone e)) (by simp)
    | some w =>
      obtain ⟨lane, next, rest⟩ := w
      simp only [ne_eq, hactive, not_false_eq_true, Option.some.injEq, Prod.mk.injEq, true_and]
      constructor
      · rintro h ⟨⟨e, he⟩, lane', next', rest', ⟨rfl, rfl, rfl⟩, hne⟩
        exact hne ((schedCompl_undone_iff hmode hactive hwaiting he).1 ((hrev e he).1 (h e he)))
      · intro h e he
        refine (hrev e he).2 ((schedCompl_undone_iff hmode hactive hwaiting he).2 ?_)
        by_contra hne
        exact h ⟨⟨e, he⟩, lane, next, rest, ⟨rfl, rfl, rfl⟩, hne⟩

theorem undone_completion_iff (hcompl : ¬m.event.IsRequest) (hmode : s.freelist.mode ≠ .nonopt) :
    Undone d self now s m ↔ ¬Lost d self now s m := by
  unfold Undone Lost
  rw [lsmEvent_completion hcompl, and_iff_right completion_lanes]
  simp only [hcompl, false_and, not_false_eq_true, true_and, false_or]
  by_cases hsane : m.cb.info.Sane 4
  case neg =>
    have hfail : handleIoCompletion d self now ⟨s, m, []⟩ = .error .assertion := if_pos hsane
    simp [hfail]
  by_cases huse : s.useSched = true
  · have hsched : handleIoCompletion d self now ⟨s, m, []⟩ =
        handleIoSchedCompl d now ⟨s.draw 1, m, [.callback (m.cb.answer self 0)]⟩ := by
      unfold handleIoCompletion
      rw [if_neg (not_not.2 hsane)]
      exact if_pos huse
    rw [hsched]
    simpa only [huse, true_and] using undone_sched_iff hcompl huse hmode _
  · refine iff_of_true (fun e he => ?_) fun h => huse h.1
    unfold handleIoCompletion at he
    rw [if_neg (not_not.2 hsane)] at he
    dsimp only at he
    rw [if_neg (by exact huse)] at he
    cases he
    rw [lsmRevEvent_completion hcompl, handleRevIoCompletion, if_neg (by exact huse)]
    refine ⟨_, rfl, rfl, rfl, rfl, SameStats.refl _, rfl, rfl, rfl⟩

/-- **Undoing an event.**  An event is undone unless it has to wait in a lane that does not exist,
or starts a request from before others that are not like it. -/
theorem lsm_undone_iff (d : DiskModel) (self : Lpid) (now : STime) (s : State) (m : Msg)
    (hmode : s.freelist.mode ≠ .nonopt) : Undone d self now s m ↔ ¬Lost d self now s m := by
  by_cases hreq : m.event.IsRequest
  · exact undone_request_iff hreq
  · exact undone_completion_iff hreq hmode

end Undo

/-- Three requests, of which two have to wait. -/
def threeRequests : List Label :=
  [.request 0 blankMsg (callOf 3 false), .request 1 blankMsg (callOf 4 false),
    .request 2 blankMsg { callOf 5 false with object := 2 }]

theorem lsm_undone_iff_threeRequests : ∃ x y, (machine plainDisk 7).run
      (Sys.init plainDisk .optimistic 0) threeRequests = some x ∧ x.flying = [y] ∧
    (Undone plainDisk 7 10 x.s y.1 ↔ ¬Lost plainDisk 7 10 x.s y.1) :=
  ⟨_, _, rfl, rfl, lsm_undone_iff plainDisk 7 10 _ _ (by decide)⟩

/-- After the completion of the first one is undone, the other two have changed places. -/
theorem order_lost : ∃ x y e s', (machine plainDisk 7).run
      (Sys.init plainDisk .optimistic 0) threeRequests = some x ∧ x.flying = [y] ∧
    lsmEvent plainDisk 7 10 x.s y.1 = .ok e ∧ lsmRevEvent e.s e.m = .ok s' ∧
    s'.queues 0 = (x.s.queues 0).reverse ∧ ¬Undone plainDisk 7 10 x.s y.1 := by
  refine ⟨_, _, _, _, rfl, rfl, rfl, rfl, rfl, fun h => ?_⟩
  obtain ⟨s', hs', hr⟩ := h.2 _ rfl
  cases hs'
  exact absurd (congrFun hr.queues 0) (by decide)

end CodesSim.Storage
