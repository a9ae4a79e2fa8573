import CodesSim.Torus.Reverse

/-!
# Rollback of the torus

The reverse handler undoes the forward handler, with two exceptions (`Undoable`).  The last chunk of
a packet saves the time of all categories and the reverse handler puts it back as the time of the
category of the packet; and the server that starts a collective operation is not saved.
`torus_rollback_iff` says that these are the only ones, in every reachable state.
-/

namespace CodesSim.Torus

open Function

attribute [ext] Node

/-- `s'` is `s` again: everything but the names of the categories and the largest events. -/
structure Restored (s s' : NodeState) : Prop where
  toNode : s'.toNode = s.toNode
  stats : ∀ i, (s'.stats i).counts = (s.stats i).counts
  nextCreditAvailableTime : s'.nextCreditAvailableTime = s.nextCreditAvailableTime
  collectiveInitTime : s'.collectiveInitTime = s.collectiveInitTime
  originSvr : s'.originSvr = s.originSvr
  numFanNodes : s'.numFanNodes = s.numFanNodes
  st : s'.st = s.st

/-- **The condition.**  If the last chunk of a packet arrives, its category has all of the time of
the node; and a collective operation is started by the server that started the last one. -/
def Undoable (p : FullParam) (self : ℕ) (s : NodeState) : NodeEvent → Prop
  | .packet (.arrival msg) => self = msg.destLp →
      msg.chunkId = numChunks msg.packetSize p.chunkSize - 1 →
      ∀ i, findStats s.stats msg.category = some i → (s.stats i).recvTime = s.totalTime
  | .collectiveInit msg => msg.senderSvr = s.originSvr
  | _ => True

/-! ### Lists and loops -/

variable {p : FullParam} {env : FullEnv} {self : ℕ} {s : NodeState} {sv : Saved} {d : Done}

/-! ### Packets -/

variable {msg : Msg}

theorem generate_undone (h : generateFwd p env self s msg sv = some d) :
    ∃ s', nodeRcHandler p self d = some s' ∧ Restored s s' := by
  obtain ⟨⟨dim, dir⟩, hdor, h⟩ := Option.bind_eq_some_iff.1 h
  obtain ⟨r, hr, h⟩ := Option.bind_eq_some_iff.1 h
  obtain ⟨stats, hstats, rfl⟩ := Option.map_eq_some_iff.1 h
  obtain ⟨i, hfind, rfl⟩ := updateStats_eq_some.1 hstats
  rw [packetGenerate, hdor, Option.map_some, Option.some.injEq] at hr
  subst hr
  have hcounts : ∀ st : MnStats, MnStats.counts { MnStats.generated p msg st with
      category := msg.category
      sendCount := (MnStats.generated p msg st).sendCount - 1
      sendBytes := (MnStats.generated p msg st).sendBytes - msg.packetSize
      sendTime := (MnStats.generated p msg st).sendTime - 1 / p.linkBandwidth * msg.packetSize } =
        st.counts := by
    intro st
    simp [MnStats.counts, MnStats.generated]
  refine ⟨{ s with stats := update s.stats i { MnStats.generated p msg (s.stats i) with
      category := msg.category
      sendCount := (MnStats.generated p msg (s.stats i)).sendCount - 1
      sendBytes := (MnStats.generated p msg (s.stats i)).sendBytes - msg.packetSize
      sendTime := (MnStats.generated p msg (s.stats i)).sendTime -
        1 / p.linkBandwidth * msg.packetSize } }, ?_, rfl, (agree_update MnStats.counts _ _).2
        (hcounts _), rfl,
      rfl, rfl, rfl, rfl⟩
  by_cases hloop : s.inSendLoop (queueOf dim dir) = 0
  · have hback : update s.inSendLoop (queueOf dim dir) 0 = s.inSendLoop := by
      rw [← hloop, update_eq_self]
    simp [nodeRcHandler, packetGenerateRc, startSend, hloop, returnTails, updateStats,
      findStats_update hfind, NodeState.unstart, hback]
  · simp [nodeRcHandler, packetGenerateRc, startSend, hloop, returnTails, updateStats,
      findStats_update hfind, NodeState.unstart]

/-- A chunk that was sent is taken back; `isT` if it was injected here. -/
theorem send_undone {dim dir : ℕ} (hloop : s.inSendLoop (queueOf dim dir) = 1) :
    nodeRcHandler p self (sendFwd p env self s dim dir sv) = some s := by
  have hback : update s.inSendLoop (queueOf dim dir) 1 = s.inSendLoop := by
    rw [← hloop, update_eq_self]
  cases hp : s.pendingMsgs (queueOf dim dir) with
  | cons c rest =>
    have hpending : update s.pendingMsgs (queueOf dim dir) (c :: rest) = s.pendingMsgs := by
      rw [← hp, update_eq_self]
    simp only [nodeRcHandler, sendFwd, hp, packetSend, packetSendRc, sentBf, transmit]
    generalize (!rest.isEmpty || !(s.terminalMsgs (queueOf dim dir)).isEmpty) = more
    by_cases hlast : c.chunkId = numChunks c.packetSize p.chunkSize - 1 <;>
      by_cases hodd : c.packetSize % p.chunkSize = 0 <;>
      by_cases hlocal : c.localEventSizeBytes > 0 <;>
      cases more <;>
      simp [continueSend, hlast, hodd, hlocal, hpending, hback]
  | nil =>
    cases ht : s.terminalMsgs (queueOf dim dir) with
    | nil => simp [nodeRcHandler, sendFwd, hp, ht, packetSend, packetSendRc, hback]
    | cons c rest =>
      have hterminal : update s.terminalMsgs (queueOf dim dir) (c :: rest) =
          s.terminalMsgs := by
        rw [← ht, update_eq_self]
      by_cases hroom : HasRoom p.toParam (s.buffer (queueOf dim dir)) 2
      · simp only [nodeRcHandler, sendFwd, hp, ht, packetSend, packetSendRc, sentBf,
          transmit, hroom,
          if_true]
        generalize (!rest.isEmpty) = more
        by_cases hlast : c.chunkId = numChunks c.packetSize p.chunkSize - 1 <;>
          by_cases hodd : c.packetSize % p.chunkSize = 0 <;>
          by_cases hlocal : c.localEventSizeBytes > 0 <;>
          cases more <;>
          simp [continueSend, hlast, hodd, hlocal, hterminal, hback]
      · by_cases hfull : s.queuedMsgs (queueOf dim dir) ≠ [] ∧ s.lastBufFull (queueOf dim dir) = 0
        · have hlast : update s.lastBufFull (queueOf dim dir) 0 = s.lastBufFull := by
            rw [← hfull.2, update_eq_self]
          simp [nodeRcHandler, sendFwd, hp, ht, packetSend, packetSendRc, hback, hroom,
            hfull, hlast]
        · simp [nodeRcHandler, sendFwd, hp, ht, packetSend, packetSendRc, hback, hroom, hfull]

theorem transit_undone (h : arriveTransitFwd p env self s msg sv = some d) :
    nodeRcHandler p self d = some s := by
  obtain ⟨⟨dim, dir⟩, hdor, h⟩ := Option.bind_eq_some_iff.1 h
  obtain ⟨r, hr, rfl⟩ := Option.map_eq_some_iff.1 h
  rw [arriveTransit, hdor, Option.map_some, Option.some.injEq] at hr
  subst hr
  have hbackLoop : s.inSendLoop (queueOf dim dir) = 0 →
      update s.inSendLoop (queueOf dim dir) 0 = s.inSendLoop := fun h => by
    rw [← h, update_eq_self]
  have hbackFull : s.lastBufFull (queueOf dim dir) = 0 →
      update s.lastBufFull (queueOf dim dir) 0 = s.lastBufFull := fun h => by
    rw [← h, update_eq_self]
  by_cases hdim : msg.sourceDim = dim
  · by_cases hroom : HasRoom p.toParam (s.buffer (queueOf dim dir)) 1 <;>
      by_cases hfull : s.lastBufFull (queueOf dim dir) = 0 <;>
      by_cases hloop : s.inSendLoop (queueOf dim dir) = 0 <;>
      simp [nodeRcHandler, packetArriveRc, arriveTransitRc, startSend, creditSend, returnTails,
        NodeState.unstart, hdim, hroom, hfull, hloop, hbackLoop, hbackFull]
  · by_cases hroom : HasRoom p.toParam (s.buffer (queueOf dim dir)) 2 <;>
      by_cases hfull : s.lastBufFull (queueOf dim dir) = 0 <;>
      by_cases hloop : s.inSendLoop (queueOf dim dir) = 0 <;>
      simp [nodeRcHandler, packetArriveRc, arriveTransitRc, startSend, creditSend, returnTails,
        NodeState.unstart, hdim, hroom, hfull, hloop, hbackLoop, hbackFull]

theorem credit_undone {dim dir : ℕ} :
    nodeRcHandler p self (creditFwd p env self s dim dir sv) = some s := by
  have hbackLoop : s.inSendLoop (queueOf dim dir) = 0 →
      update s.inSendLoop (queueOf dim dir) 0 = s.inSendLoop := fun h => by
    rw [← h, update_eq_self]
  cases hq : s.queuedMsgs (queueOf dim dir) with
  | cons c rest =>
    have hqueued : update s.queuedMsgs (queueOf dim dir) (c :: rest) = s.queuedMsgs := by
      rw [← hq, update_eq_self]
    by_cases hfull : s.lastBufFull (queueOf dim dir) = 0 <;>
      by_cases hloop : s.inSendLoop (queueOf dim dir) = 0 <;>
      simp [nodeRcHandler, creditFwd, packetBufferProcess, packetBufferProcessRc, endBusy, passOn,
        grant, creditSend, startSend, ungrant, NodeState.unstart, hq, hqueued, hfull, hloop,
        hbackLoop]
  | nil =>
    by_cases hroom : HasRoom p.toParam (s.buffer (queueOf dim dir) - p.chunkSize) 2
    · cases ho : s.otherMsgs (queueOf dim dir) with
      | cons c rest =>
        have hother : update s.otherMsgs (queueOf dim dir) (c :: rest) = s.otherMsgs := by
          rw [← ho, update_eq_self]
        by_cases hfull : s.lastBufFull (queueOf dim dir) = 0 <;>
          by_cases hloop : s.inSendLoop (queueOf dim dir) = 0 <;>
          simp [nodeRcHandler, creditFwd, packetBufferProcess, packetBufferProcessRc, endBusy,
            passOn, grant, creditSend, startSend, ungrant, NodeState.unstart, hq, hroom, ho, hother,
            hfull, hloop, hbackLoop]
      | nil =>
        by_cases hfull : s.lastBufFull (queueOf dim dir) = 0 <;>
          by_cases hloop : s.inSendLoop (queueOf dim dir) = 0 <;>
          simp [nodeRcHandler, creditFwd, packetBufferProcess, packetBufferProcessRc, endBusy,
            passOn, startSend, NodeState.unstart, hq, hroom, ho, hfull, hloop, hbackLoop]
    · by_cases hfull : s.lastBufFull (queueOf dim dir) = 0 <;>
        by_cases hloop : s.inSendLoop (queueOf dim dir) = 0 <;>
        simp [nodeRcHandler, creditFwd, packetBufferProcess, packetBufferProcessRc, endBusy,
          passOn, startSend, NodeState.unstart, hq, hroom, hfull, hloop, hbackLoop]

theorem Restored.refl (s : NodeState) : Restored s s := ⟨rfl, fun _ => rfl, rfl, rfl, rfl, rfl, rfl⟩

theorem here_undone (hmsg : self = msg.destLp) (h : arriveHereFwd p env s msg sv = some d) :
    ∃ s', nodeRcHandler p self d = some s' ∧
      (Restored s s' ↔ Undoable p self s (.packet (.arrival msg))) := by
  by_cases hlast : msg.chunkId = numChunks msg.packetSize p.chunkSize - 1
  · rw [arriveHereFwd, if_pos hlast] at h
    obtain ⟨stats, hstats, rfl⟩ := Option.map_eq_some_iff.1 h
    obtain ⟨i, hfind, rfl⟩ := updateStats_eq_some.1 hstats
    refine ⟨{ s with stats := update s.stats i { s.stats i with
      category := msg.category
      recvTime := s.totalTime } }, ?_, ?_⟩
    · by_cases hpull : msg.remoteEventSizeBytes ≠ 0 ∧ msg.isPull = true
      · simp [nodeRcHandler, packetArriveRc, arriveHereRc, arriveHere, creditSend, updateStats,
          findStats_update hfind, MnStats.received, ← hlast, hpull]
      · simp [nodeRcHandler, packetArriveRc, arriveHereRc, arriveHere, creditSend, updateStats,
          findStats_update hfind, MnStats.received, ← hlast, hpull]
    · have hcounts : Restored s { s with stats := update s.stats i { s.stats i with
          category := msg.category
          recvTime := s.totalTime } } ↔ (s.stats i).recvTime = s.totalTime := by
        constructor
        · intro hr
          have := (agree_update MnStats.counts s.stats i).1 hr.stats
          simpa [MnStats.counts, eq_comm] using this
        · intro ht
          refine ⟨rfl, (agree_update MnStats.counts s.stats i).2 ?_, rfl, rfl, rfl, rfl, rfl⟩
          simp [MnStats.counts, ht]
      rw [hcounts]
      constructor
      · intro ht _ _ j hj
        rw [hfind] at hj
        cases hj
        exact ht
      · exact fun hu => hu hmsg hlast i hfind
  · rw [arriveHereFwd, if_neg hlast, Option.some.injEq] at h
    subst h
    refine ⟨s, ?_, fun _ _ hl => absurd hl hlast, fun _ => .refl s⟩
    simp [nodeRcHandler, packetArriveRc, arriveHereRc, arriveHere, creditSend, hlast]

/-! ### Collective operations -/

theorem collectiveInit_undone (h : collectiveInitFwd p env self s msg sv = some d) :
    ∃ s', nodeRcHandler p self d = some s' ∧
      (Restored s s' ↔ Undoable p self s (.collectiveInit msg)) := by
  refine ⟨{ s with originSvr := msg.senderSvr }, ?_, fun hr => hr.originSvr,
    fun hu => ⟨rfl, fun _ => rfl, rfl, rfl, hu, rfl, rfl⟩⟩
  rw [collectiveInitFwd] at h
  split at h
  · obtain ⟨up, -, rfl⟩ := Option.map_eq_some_iff.1 h
    rfl
  · cases h
    rfl

theorem fanIn_undone : nodeRcHandler p self (fanInFwd p env self s msg sv) = some s := by
  unfold fanInFwd
  cases parent self with
  | some up =>
    by_cases hall : s.numFanNodes + 1 = (myChildren p self).length <;> simp [nodeRcHandler, hall]
  | none =>
    by_cases hall : s.numFanNodes + 1 = (myChildren p self).length <;> simp [nodeRcHandler, hall]

theorem fanOut_undone : nodeRcHandler p self (fanOutFwd p env self s msg sv) = some s := by
  by_cases hleaf : myChildren p self = [] <;> simp [nodeRcHandler, fanOutFwd, hleaf]

/-- **One event.**  The reverse handler restores a node in which the loop of a `SEND` event runs,
exactly if the event is undoable. -/
theorem nodeRcHandler_iff {e : NodeEvent} (h : eventHandler p env self s sv e = some d)
    (hloop : ∀ dim dir, e = .packet (.send dim dir) → s.inSendLoop (queueOf dim dir) = 1) :
    ∃ s', nodeRcHandler p self d = some s' ∧ (Restored s s' ↔ Undoable p self s e) := by
  have hsame : nodeRcHandler p self d = some s → Undoable p self s e →
      ∃ s', nodeRcHandler p self d = some s' ∧ (Restored s s' ↔ Undoable p self s e) :=
    fun hs hu => ⟨s, hs, fun _ => hu, fun _ => .refl s⟩
  cases e with
  | packet e =>
    cases e with
    | generate msg =>
      obtain ⟨s', hs', hr⟩ := generate_undone h
      exact ⟨s', hs', fun _ => trivial, fun _ => hr⟩
    | arrival msg =>
      simp only [eventHandler] at h
      split_ifs at h with hmsg
      · exact here_undone hmsg h
      · exact hsame (transit_undone h) fun hm => absurd hm hmsg
    | send dim dir =>
      cases h
      exact hsame (send_undone (hloop dim dir rfl)) trivial
    | credit dim dir =>
      cases h
      exact hsame credit_undone trivial
  | collectiveInit msg => exact collectiveInit_undone h
  | collectiveFanIn msg =>
    cases h
    exact hsame fanIn_undone trivial
  | collectiveFanOut msg =>
    cases h
    exact hsame fanOut_undone trivial

/-! ### Reachable states -/

theorem eventHandler_packet {e : Event} (h : eventHandler p env self s sv (.packet e) = some d) :
    ∃ r, handle p.toParam env.toEnv self s.toNode e = some r ∧ d.state.toNode = r.1 ∧
      d.outs = r.2.map .packet := by
  cases e with
  | generate msg =>
    obtain ⟨x, -, h⟩ := Option.bind_eq_some_iff.1 h
    obtain ⟨r, hr, h⟩ := Option.bind_eq_some_iff.1 h
    obtain ⟨stats, -, rfl⟩ := Option.map_eq_some_iff.1 h
    exact ⟨r, hr, rfl, rfl⟩
  | arrival msg =>
    simp only [eventHandler, handle, packetArrive] at h ⊢
    split_ifs at h ⊢ with hmsg
    · refine ⟨_, rfl, ?_⟩
      rw [arriveHereFwd] at h
      split_ifs at h
      · obtain ⟨stats, -, rfl⟩ := Option.map_eq_some_iff.1 h
        exact ⟨rfl, rfl⟩
      · cases h
        exact ⟨rfl, rfl⟩
    · obtain ⟨x, -, h⟩ := Option.bind_eq_some_iff.1 h
      obtain ⟨r, hr, rfl⟩ := Option.map_eq_some_iff.1 h
      exact ⟨r, hr, rfl, rfl⟩
  | send dim dir =>
    cases h
    refine ⟨_, rfl, ?_⟩
    rw [sendFwd]
    split
    · exact ⟨rfl, rfl⟩
    · exact ⟨rfl, rfl⟩
    · split_ifs <;> exact ⟨rfl, rfl⟩
  | credit dim dir =>
    cases h
    exact ⟨_, rfl, rfl, rfl⟩

/-- The packet event among all events. -/
def NodeEvent.packet? : NodeEvent → Option Event
  | .packet e => some e
  | _ => none

theorem eventHandler_collective {e : NodeEvent} (h : eventHandler p env self s sv e = some d)
    (he : e.packet? = none) : d.state.toNode.lane = s.toNode.lane ∧
      (d.outs.filterMap NodeOut.toNode).filterMap (fun x => x.2.packet?.map (Prod.mk x.1)) =
      [] := by
  have hremote : ∀ msg, ∀ x ∈ (collectiveRemote p s msg).filterMap NodeOut.toNode,
      x.2.packet? = none := by
    intro msg x hx
    rw [collectiveRemote] at hx
    split_ifs at hx
    · simp at hx
    · simp [NodeOut.toNode, Out.toNode] at hx
  have hfanOut : ∀ base msg, ∀ x ∈ (fanOutOuts p env self s base msg).filterMap NodeOut.toNode,
      x.2.packet? = none := by
    intro base msg x hx
    obtain ⟨out, hout, hx⟩ := List.mem_filterMap.1 hx
    obtain ⟨y, -, rfl⟩ := List.mem_map.1 hout
    cases hx
    rfl
  have hnil : ∀ l : List (ℕ × NodeEvent), (∀ x ∈ l, x.2.packet? = none) →
      l.filterMap (fun x => x.2.packet?.map (Prod.mk x.1)) = [] := by
    intro l hl
    rw [List.filterMap_eq_nil_iff]
    intro x hx
    rw [hl x hx, Option.map_none]
  cases e with
  | packet e => cases he
  | collectiveInit msg =>
    simp only [eventHandler, collectiveInitFwd] at h
    split_ifs at h
    · obtain ⟨up, -, rfl⟩ := Option.map_eq_some_iff.1 h
      exact ⟨rfl, rfl⟩
    · cases h
      exact ⟨rfl, rfl⟩
  | collectiveFanIn msg =>
    cases h
    rw [fanInFwd]
    cases parent self with
    | some up => split_ifs <;> exact ⟨rfl, rfl⟩
    | none =>
      split_ifs
      · refine ⟨rfl, hnil _ ?_⟩
        rw [List.filterMap_append]
        exact List.forall_mem_append.2 ⟨hremote msg, hfanOut _ msg⟩
      · exact ⟨rfl, rfl⟩
  | collectiveFanOut msg =>
    cases h
    refine ⟨rfl, hnil _ ?_⟩
    rw [fanOutFwd, List.filterMap_append]
    exact List.forall_mem_append.2 ⟨hremote msg, hfanOut _ msg⟩

/-- The packets of the whole network are those of `system`. -/
def packets (p : FullParam) : LpSystem.Projection (fullSystem p) (system p.toParam) where
  state _ s := s.toNode
  event := NodeEvent.packet?
  env ω := ω.1.toEnv
  silent _ s t := t.lane = s.lane
  handle_some := by
    intro ω i s e s' outs e' h he
    obtain ⟨d, hd, hx⟩ := Option.map_eq_some_iff.1 h
    obtain ⟨rfl, rfl⟩ := Prod.mk.inj hx
    cases e with
    | packet e =>
      cases he
      obtain ⟨r, hr, hstate, houts⟩ := eventHandler_packet hd
      have hsent : (d.outs.filterMap NodeOut.toNode).filterMap
          (fun x => x.2.packet?.map (Prod.mk x.1)) = sent r.2 := by
        rw [houts, List.filterMap_map, List.filterMap_filterMap, sent]
        refine List.filterMap_congr fun out _ => ?_
        cases out <;> rfl
      rw [hsent, hstate]
      exact Option.map_eq_some_iff.2 ⟨r, hr, rfl⟩
    | collectiveInit | collectiveFanIn | collectiveFanOut => cases he
  handle_none := by
    intro ω i s e s' outs h he
    obtain ⟨d, hd, hx⟩ := Option.map_eq_some_iff.1 h
    obtain ⟨rfl, rfl⟩ := Prod.mk.inj hx
    exact eventHandler_collective hd he

theorem Flagged.of_lane {net : TorusNet} {n : ℕ} {t : Node} (h : Flagged net)
    (ht : t.lane = (net.nodes n).lane) :
    Flagged ⟨update net.nodes n t, net.inFlight⟩ := by
  have hflag : ∀ m q, (update net.nodes n t m).inSendLoop q =
      (net.nodes m).inSendLoop q := by
    intro m q
    by_cases hm : m = n
    · subst hm
      rw [update_self]
      exact congrArg Lane.loop (congrFun ht q)
    · rw [update_of_ne hm]
  exact ⟨fun m q => (hflag m q).trans (h.count m q), fun m q => (hflag m q).trans_le (h.le_one m q)⟩

theorem flagged_of_run {ls : List FullLabel} {net : FullNet} (hls : ∀ l ∈ ls, FullFromOutside p l)
    (h : (fullSystem p).machine.run initFull ls = some net) : Flagged ((packets p).net net) := by
  have hinit : Flagged ((packets p).net initFull) := flagged_init
  refine LpSystem.Projection.run_invariant (Q := OnlyPackets) (fun n l l' hl hl' => ?_)
    (fun m l m' hm hl hstep => ?_) (fun m d t hm ht => hm.of_lane ht) hinit hls h
  · cases l with
    | inject d e ω =>
      obtain ⟨e', he, rfl⟩ := Option.map_eq_some_iff.1 hl'
      cases e with
      | packet e =>
        cases he
        cases e' with
        | generate msg => trivial
        | arrival | send | credit => exact hl.elim
      | collectiveInit | collectiveFanIn | collectiveFanOut => cases he
    | deliver i ω =>
      obtain ⟨x, -, hl'⟩ := Option.bind_eq_some_iff.1 hl'
      obtain ⟨e', -, rfl⟩ := Option.map_eq_some_iff.1 hl'
      trivial
  · obtain ⟨env, d, e, s', outs, rest, ht⟩ := step_handled hm hl hstep
    exact ht.flagged hm

/-- Node `n` can receive the event `e`: it is in flight, or it comes from outside. -/
def Receives (p : FullParam) (net : FullNet) (n : ℕ) (e : NodeEvent) : Prop :=
  (n, e) ∈ net.inFlight ∨ ∀ ω, FullFromOutside p (.inject n e ω)

/-- **Rollback.**  In every reachable state and for every event that a node can receive, the reverse
handler succeeds after the forward handler, and it restores the node exactly if the event is
undoable. -/
theorem torus_rollback_iff (p : FullParam) (ls : List FullLabel)
    (hls : ∀ l ∈ ls, FullFromOutside p l) (net : FullNet)
    (h : (fullSystem p).machine.run initFull ls = some net) (n : ℕ) (e : NodeEvent)
    (he : Receives p net n e) (env : FullEnv) (sv : Saved) (d : Done)
    (hd : eventHandler p env n (net.nodes n) sv e = some d) :
    ∃ s', nodeRcHandler p n d = some s' ∧
      (Restored (net.nodes n) s' ↔ Undoable p n (net.nodes n) e) := by
  refine nodeRcHandler_iff hd fun dim dir hsend => ?_
  subst hsend
  have hinv := flagged_of_run hls h
  rcases he with he | he
  · -- the flag counts the events in flight, so it is not zero
    have hmem : (n, Event.send dim dir) ∈ ((packets p).net net).inFlight :=
      List.mem_filterMap.2 ⟨_, he, rfl⟩
    have hone : sendIn (n, queueOf dim dir) n (.send dim dir) = 1 := if_pos rfl
    have hle := LpSystem.le_flightSum (sendIn (n, queueOf dim dir)) hmem
    have hcount : (net.nodes n).inSendLoop (queueOf dim dir) = _ :=
      hinv.count n (queueOf dim dir)
    have hmax : (net.nodes n).inSendLoop (queueOf dim dir) ≤ 1 := hinv.le_one n (queueOf dim dir)
    omega
  · exact (he (env, sv)).elim

/-! ### Two categories -/

/-- A ring of two nodes. -/
def ringOfTwo : FullParam where
  toParam := ⟨[2], 4, 1, 0, 0, 0, 0⟩
  linkBandwidth := 1
  msgSz := 0

def envAt (now : STime) : FullEnv where
  toEnv := ⟨now, fun _ => 0, fun _ => 0, 0⟩
  exponential _ := 0

/-- A packet of one chunk for node 1. -/
def packetOf (category : String) : NodeEvent :=
  .packet (.generate { (default : Msg) with category := category, destLp := 1, packetSize := 1 })

/-- A packet of category `a` is delivered at time 5, and one of category `b` is on its link. -/
def twoCategories : List FullLabel :=
  [.inject 0 (packetOf "a") (envAt 0, default), .deliver 0 (envAt 0, default),
    .deliver 0 (envAt 5, default), .inject 0 (packetOf "b") (envAt 6, default),
    .deliver 1 (envAt 6, default)]

/-- The time of category `b` at node 1 was 0 and is 5 after the rollback. -/
theorem twoCategories_not_restored : ∃ net e d s',
    (fullSystem ringOfTwo).machine.run initFull twoCategories = some net ∧
    (∀ l ∈ twoCategories, FullFromOutside ringOfTwo l) ∧ (1, e) ∈ net.inFlight ∧
    eventHandler ringOfTwo (envAt 7) 1 (net.nodes 1) default e = some d ∧
    nodeRcHandler ringOfTwo 1 d = some s' ∧ ((net.nodes 1).stats 1).recvTime = 0 ∧
    (s'.stats 1).recvTime = 5 ∧ ¬ Restored (net.nodes 1) s' := by
  refine ⟨_, .packet (.arrival { (default : Msg) with
    category := "b"
    packetId := 1
    destLp := 1
    packetSize := 1
    sourceDirection := 1
    nextStop := 1
    savedQueue := -1 }), _, _, rfl, ?_, ?_, rfl, rfl, by rfl, ?_, fun hr => ?_⟩
  · simp [twoCategories, packetOf, FullFromOutside, numNodes, ringOfTwo]
  · decide +kernel
  · decide +kernel
  · have := congrArg (fun c => c.2.2.2) (hr.stats 1)
    revert this
    decide +kernel

theorem torus_rollback_iff_twoCategories : ∃ net d s',
    (fullSystem ringOfTwo).machine.run initFull twoCategories = some net ∧
    eventHandler ringOfTwo (envAt 7) 0 (net.nodes 0) default (.packet (.credit 0 1)) = some d ∧
    nodeRcHandler ringOfTwo 0 d = some s' ∧ Restored (net.nodes 0) s' := by
  obtain ⟨s', hs', hr⟩ := torus_rollback_iff ringOfTwo twoCategories
    (by simp [twoCategories, packetOf, FullFromOutside, numNodes, ringOfTwo]) _ rfl 0
    (.packet (.credit 0 1)) (.inl (by decide +kernel)) (envAt 7) default _ rfl
  exact ⟨_, _, s', rfl, rfl, hs', hr.2 trivial⟩

end CodesSim.Torus
