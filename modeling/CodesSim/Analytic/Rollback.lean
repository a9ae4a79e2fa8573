import CodesSim.Loggp.Basic
import CodesSim.SimpleP2P.Basic
import CodesSim.Simplenet.Basic

/-!
# Rollback of the analytic networks

The three networks save different parts of their state in the message and undo the rest by
arithmetic.  `NicView` is what a rollback has to restore, `Nic` the handlers of a network.

* `Nic.Exact` : the reverse handler restores the view exactly if the event that started a message
  was no larger than the largest one of its category.  None of the reverse handlers puts
  `max_event_size` back;
* `rollback_exact` : so it is in all three networks, for every state and message.
-/

namespace CodesSim

open Function

/-! ### What is restored -/

/-- The counters and the largest event of a category. -/
def MnStats.fields (st : MnStats) : ((ℤ × ℤ × STime) × ℤ × ℤ × STime) × ℤ :=
  (st.counts, st.maxEventSize)

/-- The idle times of a category: sent and received, next and previous. -/
def SimpleP2P.CategoryIdles.times (x : SimpleP2P.CategoryIdles) : (STime × STime) × STime × STime :=
  ((x.sendNextIdleAll, x.sendPrevIdleAll), x.recvNextIdleAll, x.recvPrevIdleAll)

/-- The next-idle times of the connections, the idle times of the categories and the statistics.  A
network with one connection has the same time for all ids, and one without idle times of categories
has zeros. -/
structure NicView where
  sendNextIdle : ℤ → STime
  recvNextIdle : ℤ → STime
  idleTimes : ℕ → (STime × STime) × STime × STime
  stats : ℕ → ((ℤ × ℤ × STime) × ℤ × ℤ × STime) × ℤ

/-- A network: its handlers and what is seen of its states and messages. -/
structure Nic (σ μ : Type) where
  event : NicCtx → STime → σ → MsgGlobals → NicEventType → μ → Option (NicResult σ μ)
  revEvent : NicCtx → σ → MsgGlobals → NicEventType → μ → Option (NicUndone σ)
  header : μ → NicMsg
  stats : σ → StatsArray
  view : σ → NicView
  view_stats : ∀ ns, (view ns).stats = fun i => (stats ns i).fields

namespace Nic

variable {σ μ : Type} (N : Nic σ μ)

/-- The reverse handler, on what the handler leaves, restores the view and the number of latencies
drawn. -/
def Restores (c : NicCtx) (ns : σ) (g : MsgGlobals) (type : NicEventType) (r : NicResult σ μ) :
    Prop :=
  ∃ u, N.revEvent c r.state r.globals type r.msg = some u ∧ N.view u.state = N.view ns ∧
    u.globals.draws c.gid = g.draws c.gid

/-- A message that starts is no larger, with its payloads, than the largest event of its
category. -/
def Sized (c : NicCtx) (ns : σ) (type : NicEventType) (m : μ) : Prop :=
  type = .start → ∀ i, findStats (N.stats ns) (N.header m).category = some i →
    (N.header m).totalEventSize c ≤ (N.stats ns i).maxEventSize

/-- Handled events are undone exactly if they are no larger than the largest one. -/
def Exact (c : NicCtx) (now : STime) (g : MsgGlobals) (type : NicEventType) : Prop :=
  ∀ ns m r, N.event c now ns g type m = some r →
    (N.Restores c ns g type r ↔ N.Sized c ns type m)

end Nic

/-- simplenet. -/
def simplenet : Nic Simplenet.SnState Simplenet.SnMsg where
  event := Simplenet.snEvent
  revEvent := Simplenet.snRevEvent
  header := Simplenet.SnMsg.toNicMsg
  stats := Simplenet.SnState.snStatsArray
  view ns :=
    { sendNextIdle := fun _ => ns.netSendNextIdle
      recvNextIdle := fun _ => ns.netRecvNextIdle
      idleTimes := fun _ => ((0, 0), 0, 0)
      stats := fun i => (ns.snStatsArray i).fields }
  view_stats _ := rfl

/-- simplep2p. -/
def simplep2p : Nic SimpleP2P.SpState SimpleP2P.SpMsg where
  event := SimpleP2P.spEvent
  revEvent := SimpleP2P.spRevEvent
  header := SimpleP2P.SpMsg.toNicMsg
  stats := SimpleP2P.SpState.spStatsArray
  view ns :=
    { sendNextIdle := ns.sendNextIdle
      recvNextIdle := ns.recvNextIdle
      idleTimes := fun i => (ns.idleTimesCat i).times
      stats := fun i => (ns.spStatsArray i).fields }
  view_stats _ := rfl

/-- loggp. -/
def loggp : Nic Loggp.LoggpState Loggp.LoggpMsg where
  event := Loggp.loggpEvent
  revEvent := Loggp.loggpRevEvent
  header := Loggp.LoggpMsg.toNicMsg
  stats := Loggp.LoggpState.loggpStatsArray
  view ns :=
    { sendNextIdle := fun _ => ns.netSendNextIdle
      recvNextIdle := fun _ => ns.netRecvNextIdle
      idleTimes := fun _ => ((0, 0), 0, 0)
      stats := fun i => (ns.loggpStatsArray i).fields }
  view_stats _ := rfl

/-! ### The statistics -/

variable {stats : StatsArray} {st : MnStats} {i : ℕ} {c : NicCtx} {now : STime} {g : MsgGlobals}

/-- What is seen of an array when an entry is replaced by one that looks the same. -/
theorem seen_update {β γ : Type} {seen : β → γ} {f : ℕ → β} {b : β} (h : seen b = seen (f i)) :
    (fun k => seen (update f i b k)) = fun k => seen (f k) := by
  funext k
  by_cases hk : k = i
  · rw [hk, update_self, h]
  · rw [update_of_ne hk]

theorem fields_update_iff {size : ℤ} (hcounts : st.counts = (stats i).counts)
    (hmax : st.maxEventSize =
      if (stats i).maxEventSize < size then size else (stats i).maxEventSize) :
    ((fun k => (update stats i st k).fields) = fun k => (stats k).fields) ↔
      size ≤ (stats i).maxEventSize := by
  constructor
  · intro h
    have hfields := congrArg Prod.snd (congrFun h i)
    simp only [update_self, MnStats.fields, hmax] at hfields
    split_ifs at hfields with hlt
    · exact hfields.le
    · exact not_lt.1 hlt
  · intro hle
    refine seen_update ?_
    rw [MnStats.fields, hcounts, hmax, if_neg (not_lt.2 hle), MnStats.fields]

theorem Nic.restores_iff_sized {σ μ : Type} {N : Nic σ μ} {ns : σ} {m : μ} {r : NicResult σ μ}
    {u : NicUndone σ} (hfind : findStats (N.stats ns) (N.header m).category = some i)
    (hrev : N.revEvent c r.state r.globals .start r.msg = some u)
    (hview : N.view u.state =
      { N.view ns with stats := fun k => (update (N.stats ns) i st k).fields })
    (hcounts : st.counts = (N.stats ns i).counts)
    (hmax : st.maxEventSize = if (N.stats ns i).maxEventSize < (N.header m).totalEventSize c then
      (N.header m).totalEventSize c else (N.stats ns i).maxEventSize)
    (hdraws : u.globals.draws = g.draws) :
    N.Restores c ns g .start r ↔ N.Sized c ns .start m := by
  have hsized : N.Sized c ns .start m ↔
      (N.header m).totalEventSize c ≤ (N.stats ns i).maxEventSize := by
    constructor
    · intro h
      exact h rfl i hfind
    · intro h _ k hk
      rwa [← Option.some.inj (hfind.symm.trans hk)]
  rw [hsized, ← fields_update_iff hcounts hmax]
  constructor
  · rintro ⟨u', hu', hrestored, -⟩
    obtain rfl := Option.some.inj (hrev.symm.trans hu')
    have hstats := congrArg NicView.stats (hview.symm.trans hrestored)
    rwa [N.view_stats] at hstats
  · intro hstats
    refine ⟨u, hrev, ?_, congrFun hdraws c.gid⟩
    rw [hview, hstats, ← N.view_stats]

theorem Nic.restores_ready {σ μ : Type} {N : Nic σ μ} {ns : σ} {m : μ} {r : NicResult σ μ}
    {u : NicUndone σ} (hrev : N.revEvent c r.state r.globals .ready r.msg = some u)
    (hview : N.view u.state = N.view ns) (hdraws : u.globals.draws = g.draws) :
    N.Restores c ns g .ready r ↔ N.Sized c ns .ready m := by
  constructor
  · rintro - ⟨⟩
  · intro _
    exact ⟨u, hrev, hview, congrFun hdraws c.gid⟩

/-! ### The three networks -/

namespace Simplenet

variable {ns : SnState} {m : SnMsg} {r : NicResult SnState SnMsg}

theorem start_restores_iff (h : handleMsgStartEvent c now ns g m = some r) :
    simplenet.Restores c ns g .start r ↔ simplenet.Sized c ns .start m := by
  obtain ⟨i, hi, rfl⟩ := handleMsgStartEvent_eq_some h
  have hagain : findStats (sendMsg c now ns g m i).state.snStatsArray m.category = some i :=
    findStats_update hi rfl
  have hcounts : (undoStartStats (sendMsg c now ns g m i).msg
      (startStats c ns m (ns.snStatsArray i))).counts = (ns.snStatsArray i).counts := by
    simp [MnStats.counts, startStats, undoStartStats, sendMsg]
  refine Nic.restores_iff_sized hi (Option.map_eq_some_iff.2 ⟨i, hagain, rfl⟩) ?_ hcounts rfl ?_
  · simp [simplenet, undoSend, sendMsg]
  · simp [undoSend, sendMsg, localEventRc_draws, localEvent_draws]

theorem ready_restores_iff (h : handleMsgReadyEvent c now ns g m = some r) :
    simplenet.Restores c ns g .ready r ↔ simplenet.Sized c ns .ready m := by
  obtain ⟨i, eventRc, g', out, hi, hdeliver, rfl⟩ := handleMsgReadyEvent_eq_some h
  have hagain : findStats (receiveMsg now ns m i).snStatsArray m.category = some i :=
    findStats_update hi rfl
  have hfields : (undoReadyStats (saveReady ns m i eventRc)
      (readyStats ns m (ns.snStatsArray i))).fields = (ns.snStatsArray i).fields := by
    simp [MnStats.fields, MnStats.counts, readyStats, undoReadyStats, saveReady]
  refine Nic.restores_ready (Option.map_eq_some_iff.2 ⟨i, hagain, rfl⟩) ?_ ?_
  · simp only [simplenet, undoReceive, receiveMsg, update_idem, update_self,
      seen_update hfields]
    rfl
  · simp [undoReceive, saveReady, deliverRc_draws, deliver_draws hdeliver]

end Simplenet

theorem simplenet_exact : simplenet.Exact c now g type := by
  intro ns m r h
  cases type with
  | start => exact Simplenet.start_restores_iff h
  | ready => exact Simplenet.ready_restores_iff h

namespace Loggp

variable {ns : LoggpState} {m : LoggpMsg} {r : NicResult LoggpState LoggpMsg}

theorem start_restores_iff (h : handleMsgStartEvent c now ns g m = some r) :
    loggp.Restores c ns g .start r ↔ loggp.Sized c ns .start m := by
  obtain ⟨param, i, -, hi, rfl⟩ := handleMsgStartEvent_eq_some h
  have hagain : findStats (sendPacket c now ns g m param i).state.loggpStatsArray m.category =
      some i := findStats_update hi rfl
  have hcounts : (undoStartStats (sendPacket c now ns g m param i).msg
      (startStats c m param (ns.loggpStatsArray i))).counts = (ns.loggpStatsArray i).counts := by
    simp [MnStats.counts, startStats, undoStartStats, sendPacket]
  refine Nic.restores_iff_sized hi (Option.map_eq_some_iff.2 ⟨i, hagain, rfl⟩) ?_ hcounts rfl ?_
  · simp [loggp, undoSend, sendPacket]
  · simp [undoSend, sendPacket, localEventRc_draws, localEvent_draws]

theorem ready_restores_iff (h : handleMsgReadyEvent c now ns g m = some r) :
    loggp.Restores c ns g .ready r ↔ loggp.Sized c ns .ready m := by
  obtain ⟨param, i, eventRc, g', out, -, hi, hdeliver, rfl⟩ := handleMsgReadyEvent_eq_some h
  have hagain : findStats (receivePacket now ns m param i).loggpStatsArray m.category = some i :=
    findStats_update hi rfl
  have hfields : (undoReadyStats (saveReady ns m param eventRc)
      (readyStats m param (ns.loggpStatsArray i))).fields = (ns.loggpStatsArray i).fields := by
    simp [MnStats.fields, MnStats.counts, readyStats, undoReadyStats, saveReady]
  refine Nic.restores_ready (Option.map_eq_some_iff.2 ⟨i, hagain, rfl⟩) ?_ ?_
  · simp only [loggp, undoReceive, receivePacket, update_idem, update_self,
      seen_update hfields]
    rfl
  · simp [undoReceive, saveReady, deliverRc_draws, deliver_draws hdeliver]

end Loggp

theorem loggp_exact : loggp.Exact c now g type := by
  intro ns m r h
  cases type with
  | start => exact Loggp.start_restores_iff h
  | ready => exact Loggp.ready_restores_iff h

namespace SimpleP2P

variable {ns : SpState} {m : SpMsg} {r : NicResult SpState SpMsg}

theorem start_restores_iff (h : handleMsgStartEvent c now ns g m = some r) :
    simplep2p.Restores c ns g .start r ↔ simplep2p.Sized c ns .start m := by
  obtain ⟨destRelId, bw, latency, i, j, -, hconn, hi, hj, rfl⟩ := handleMsgStartEvent_eq_some h
  have hagain : findStats (sendOn c now ns g m destRelId bw latency i j).state.spStatsArray
      m.category = some i := findStats_update hi rfl
  have hidles : spGetCategoryIdles
      (sendOn c now ns g m destRelId bw latency i j).state.idleTimesCat m.category = some j :=
    spGetCategoryIdles_update hj rfl
  have hcounts : (undoStartStats (startStats (ns.spStatsArray i) (ns.idleTimesCat j) m
      (m.totalEventSize c) now) (sendOn c now ns g m destRelId bw latency i j).msg).counts =
      (ns.spStatsArray i).counts := by
    simp [MnStats.counts, startStats, undoStartStats, sendOn]
  refine Nic.restores_iff_sized hi (handleMsgStartRevEvent_of_find hagain hidles hconn) ?_ hcounts
    rfl ?_
  · have htimes : (undoStartIdles (startIdles (ns.idleTimesCat j) m now
        (sendNextIdle now ns m destRelId bw))
        (sendOn c now ns g m destRelId bw latency i j).msg).times = (ns.idleTimesCat j).times := by
      simp [CategoryIdles.times, startIdles, undoStartIdles, sendOn]
    rw [sendOn] at htimes
    simp only [simplep2p, undoSend, sendOn, update_idem, update_self,
      update_eq_self, seen_update htimes]
  · simp [undoSend, sendOn, localEventRc_draws, localEvent_draws]

theorem ready_restores_iff (h : handleMsgReadyEvent c now ns g m = some r) :
    simplep2p.Restores c ns g .ready r ↔ simplep2p.Sized c ns .ready m := by
  obtain ⟨bw, i, j, eventRc, g', out, -, hconn, hi, hj, hdeliver, rfl⟩ :=
    handleMsgReadyEvent_eq_some h
  have hagain : findStats (receiveOn now ns m bw i j).spStatsArray m.category = some i :=
    findStats_update hi rfl
  have hidles : spGetCategoryIdles (receiveOn now ns m bw i j).idleTimesCat m.category = some j :=
    spGetCategoryIdles_update hj rfl
  have hfields : (undoReadyStats (readyStats (ns.spStatsArray i) (ns.idleTimesCat j) m now)
      (saveReady ns m i j eventRc)).fields = (ns.spStatsArray i).fields := by
    simp [MnStats.fields, MnStats.counts, readyStats, undoReadyStats, saveReady]
  have htimes : (undoReadyIdles (readyIdles (ns.idleTimesCat j) m now
      (recvQueueTime now ns m bw + now)) (saveReady ns m i j eventRc)).times =
      (ns.idleTimesCat j).times := by
    simp [CategoryIdles.times, readyIdles, undoReadyIdles, saveReady]
  refine Nic.restores_ready (handleMsgReadyRevEvent_of_find hagain hidles hconn) ?_ ?_
  · simp only [simplep2p, undoReceive, receiveOn, update_idem, update_self,
      seen_update hfields, seen_update htimes]
    simp [saveReady]
  · simp [undoReceive, saveReady, deliverRc_draws, deliver_draws hdeliver]

end SimpleP2P

theorem simplep2p_exact : simplep2p.Exact c now g type := by
  intro ns m r h
  cases type with
  | start => exact SimpleP2P.start_restores_iff h
  | ready => exact SimpleP2P.ready_restores_iff h

/-- **Rollback of the analytic networks**: in every state, a `READY` event that is handled is
undone, and a `START` event exactly if it does not raise the largest event of its category. -/
theorem rollback_exact (c : NicCtx) (now : STime) (g : MsgGlobals) (type : NicEventType) :
    simplenet.Exact c now g type ∧ simplep2p.Exact c now g type ∧ loggp.Exact c now g type :=
  ⟨simplenet_exact, simplep2p_exact, loggp_exact⟩

/-- The first of two simplenet NICs. -/
def firstNic : NicCtx := ⟨twoNodes, 1, (shortMessage 0).event⟩

/-- A message of 1024 bytes to the other, without payloads. -/
def oneKiB : Simplenet.SnMsg where
  srcGid := 0
  srcMnLp := 1
  finalDestGid := 2
  destMnLp := 3
  netMsgSizeBytes := 1024
  eventSizeBytes := 0
  localEventSizeBytes := 0
  category := "test"
  eventRc := 0
  isPull := false
  pullSize := 0
  edata := fun _ => 0
  netSendNextIdleSaved := 0
  netRecvNextIdleSaved := 0
  sendTimeSaved := 0
  recvTimeSaved := 0

/-- The NIC before it has sent anything: a startup cost of 5 ns, 1000 MiB/s. -/
def idleNic : Simplenet.SnState := Simplenet.snInit ⟨5, 1000⟩ 0

/-- The second message of a size is undone. -/
theorem rollback_exact_secondMessage : ∃ r r',
    simplenet.event firstNic 0 idleNic untouched .start oneKiB = some r ∧
      simplenet.event firstNic 10 r.state r.globals .start oneKiB = some r' ∧
      simplenet.Restores firstNic r.state r.globals .start r' := by
  have hruns : ((simplenet.event firstNic 0 idleNic untouched .start oneKiB).any fun r =>
      (r.state.snStatsArray 0).category = "test" ∧ (r.state.snStatsArray 0).maxEventSize = 512 ∧
        (simplenet.event firstNic 10 r.state r.globals .start oneKiB).isSome) = true := by
    decide +kernel
  obtain ⟨r, hr, hstate⟩ := (Option.any_eq_true _ _).1 hruns
  obtain ⟨hcat, hmax, hsecond⟩ := of_decide_eq_true hstate
  obtain ⟨r', hr'⟩ := Option.isSome_iff_exists.1 hsecond
  refine ⟨r, r', hr, hr', ((rollback_exact _ _ _ _).1 _ _ _ hr').2 fun _ i hi => ?_⟩
  have hslot : findStats r.state.snStatsArray "test" = some 0 := by
    rw [findStats, List.find?_range_eq_some]
    simp [hcat, categoryMax]
  obtain rfl : 0 = i := Option.some.inj (hslot.symm.trans hi)
  exact (show oneKiB.totalEventSize firstNic = 512 by decide).trans_le hmax.ge

/-- **The first message of a category leaves its size behind.** -/
theorem firstMessage_not_restored : ∃ r,
    simplenet.event firstNic 0 idleNic untouched .start oneKiB = some r ∧
      ¬ simplenet.Restores firstNic idleNic untouched .start r := by
  have hruns : ((simplenet.event firstNic 0 idleNic untouched .start oneKiB).any fun r =>
      (simplenet.revEvent firstNic r.state r.globals .start r.msg).all fun u =>
        (u.state.snStatsArray 0).maxEventSize = 512) = true := by
    decide +kernel
  obtain ⟨r, hr, hall⟩ := (Option.any_eq_true _ _).1 hruns
  refine ⟨r, hr, ?_⟩
  rintro ⟨u, hu, hview, -⟩
  rw [hu, Option.all_some, decide_eq_true_eq] at hall
  have hmax : (u.state.snStatsArray 0).maxEventSize = (idleNic.snStatsArray 0).maxEventSize :=
    congrArg (fun v => (v.stats 0).2) hview
  rw [hall] at hmax
  exact absurd hmax (by decide)

end CodesSim
