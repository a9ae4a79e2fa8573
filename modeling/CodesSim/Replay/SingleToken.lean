import CodesSim.Replay.Balance

/-!
# A single token for each rank

A rank that replays its trace has one token: its next operation is on its way, or it waits, or a
send or receive of it blocks, or it has finished.  The token moves through the handlers of two ranks
(`Jobs.balance`) and stays one as long as the sign of a request tells whether the receive of a long
message blocks (`Jobs.single_token_iff`).  A blocking receive may have any request, and with one
that is not negative its rank stops for good (`Jobs.rank_stops`).

`Jobs.Inv` is the invariant: what is known of ranks and events (`Jobs.NodeOk`, `Jobs.EventOk`), and
the number of tokens.
-/

namespace CodesSim.Replay

open CodesMapping LpSystem Outcome

section Matches

variable {c : ReplayCtx} {e e' : Ev} {msg recv : QMsg} {n : ℕ}

/-- A match sends at most one acknowledgement, and only for a long message. -/
theorem Ev.Matches.acks (h : Ev.Matches c e e' msg recv n) : ∃ n' l, e.Moves e' n' l ∧ ∀ o ∈ l,
    c.eagerThreshold ≤ msg.numBytes ∧ ∃ prio dest,
    o = .ack prio dest (ackOf msg (reqInt recv.reqId)) := by
  by_cases hlong : c.eagerThreshold ≤ msg.numBytes
  · obtain ⟨prio, dest, -, hack⟩ := h.long hlong
    exact ⟨_, _, hack, fun o ho => ⟨hlong, prio, dest, List.mem_singleton.1 ho⟩⟩
  · exact ⟨_, _, h.short (not_le.1 hlong), by simp⟩

end Matches

namespace Jobs

variable {jobs : Jobs} {t d : Lpid} {recv : QMsg} {w w' : Work} {now : STime} {k : Kept}
    {node : Node}
  {e : Event}

/-! ### What a handler leaves and sends -/

/-- What a handler leaves and sends is known. -/
structure WorkOk (jobs : Jobs) (d : Lpid) (recv : QMsg) (w : Work) : Prop where
  appId : w.r.s.appId = jobs.appId d
  directorEnabled : w.r.directorEnabled = false
  arrivals : ∀ q ∈ w.r.s.arrivalQueue, jobs.ArrivalOk d q
  sent : ∀ o ∈ w.outs, ∀ x ∈ events d recv o, jobs.EventOk x.1 x.2

theorem WorkOk.same {l : List RankOut} (h : jobs.WorkOk d recv w) (hsame : w.r.SameWork w'.r)
    (houts : w'.outs = w.outs ++ l) (hl : ∀ o ∈ l, ∀ x ∈ events d recv o, jobs.EventOk x.1 x.2) :
    jobs.WorkOk d recv w' where
  appId := hsame.appId.trans h.appId
  directorEnabled := hsame.directorEnabled.trans h.directorEnabled
  arrivals := by
    rw [hsame.s]
    exact h.arrivals
  sent := by
    rw [houts]
    exact List.forall_mem_append.2 ⟨h.sent, hl⟩

theorem WorkOk.counted (h : jobs.WorkOk d recv w) (hd : d ∈ jobs.lps) (hsame : w.r.SameWork w'.r)
    (houts : w'.outs = w.outs ++ [.queues .getNext]) : jobs.WorkOk d recv w' :=
  h.same hsame houts (by simpa [events, EventOk] using hd)

variable {ev : Ev}

theorem WorkOk.withEv {n : ℕ} {l : List NwOut} (h : jobs.WorkOk d recv w)
    (hd : d ∈ jobs.lps) (hmoves : w.ev.Moves ev n l)
    (ha : ∀ q ∈ ev.s.arrivalQueue, jobs.ArrivalOk d q)
    (hl : ∀ o ∈ l, ∀ x ∈ events d recv (.queues o), jobs.EventOk x.1 x.2) :
    jobs.WorkOk d recv (w.withEv ev) where
  appId := hmoves.appId.trans h.appId
  directorEnabled := h.directorEnabled
  arrivals := ha
  sent := by
    refine List.forall_mem_append.2 ⟨h.sent, fun o ho => ?_⟩
    obtain ⟨o, hmem, rfl⟩ := List.mem_map.1 ho
    cases o with
    | getNext => simpa [events, EventOk] using hd
    | arrivedCb dest time => simp [events]
    | ack prio dest a =>
      have hacks : ev.outs.filter NwOut.isAck = l := hmoves.acks
      exact hl _ (hacks ▸ List.mem_filter.2 ⟨hmem, rfl⟩)

theorem ackOf_ok {dest : Lpid} {msg : QMsg} {req : ℤ}
    (hlong : jobs.ctx.eagerThreshold ≤ msg.numBytes) (hreq : req = reqInt recv.reqId) :
    jobs.EventOk dest (.rendAck (ackOf msg req) recv) := ⟨hlong, hreq⟩

theorem WorkOk.matched {ev' : Ev} {msg : QMsg} {n m : ℕ} (h : jobs.WorkOk d recv w)
    (hd : d ∈ jobs.lps) (hmatch : Ev.Matches (jobs.atTime now).toReplayCtx w.ev ev msg recv n)
    (hnext : ev.Moves ev' m []) (ha : ∀ q ∈ ev'.s.arrivalQueue, jobs.ArrivalOk d q) :
    jobs.WorkOk d recv (w.withEv ev') := by
  obtain ⟨n', l, hmoves, hl⟩ := hmatch.acks
  refine h.withEv hd (hmoves.trans hnext) ha fun o ho => ?_
  rw [List.append_nil] at ho
  obtain ⟨hlong, prio, dest, rfl⟩ := hl o ho
  simpa [events] using ackOf_ok hlong rfl

theorem ok_updateArrivalQueue {m : SentMsg} (h : jobs.WorkOk d recv w) (hd : d ∈ jobs.lps)
    (hm : w.m = m.nwMsg) (hok : jobs.ArrivalOk d m.nwMsg.entry)
    (hrecv : ∀ index qi, firstMatch (fun qi => fits qi m.nwMsg.entry) 0 w.r.s.pendingRecvsQueue =
      some (index, qi) → recv = qi)
    (hev : updateArrivalQueue (jobs.atTime now).toReplayCtx w.ev = .ok ev) :
    jobs.WorkOk d recv (w.withEv ev) := by
  obtain ⟨-, hqueues⟩ := moves_updateArrivalQueue hev
  have hentry : w.ev.m.entry = m.nwMsg.entry := congrArg NwMsg.entry hm
  rw [hentry] at hqueues
  split at hqueues
  · obtain ⟨hq, hmoves⟩ := hqueues
    refine h.withEv hd hmoves ?_ (by simp)
    rw [(Prod.mk.inj hq).1]
    exact List.forall_mem_append.2 ⟨h.arrivals, by simpa using hok⟩
  · rename_i index qi hsome
    obtain ⟨hq, hmatch⟩ := hqueues
    obtain rfl := hrecv index qi hsome
    refine h.matched hd hmatch (.same rfl rfl rfl) ?_
    rw [(Prod.mk.inj hq).1]
    exact h.arrivals

theorem ok_codesExecMpiRecv {op : RecvOp} (h : jobs.WorkOk d (op.entry now) w)
    (hd : d ∈ jobs.lps) (hev : codesExecMpiRecv (jobs.atTime now).toReplayCtx w.ev op = .ok ev) :
    jobs.WorkOk d (op.entry now) (w.withEv ev) := by
  have hqueues := moves_codesExecMpiRecv hev
  split at hqueues
  · obtain ⟨hq, hmoves⟩ := hqueues
    refine h.withEv hd hmoves ?_ (by simp)
    rw [(Prod.mk.inj hq).1]
    exact h.arrivals
  · rename_i index qi hsome
    obtain ⟨hq, e₁, hmatch, hmoves⟩ := hqueues
    refine h.matched hd hmatch hmoves ?_
    rw [(Prod.mk.inj hq).1]
    exact fun q hq => h.arrivals q (List.mem_of_mem_eraseIdx hq)

theorem ok_sendOuts (prio : String) {dest : Lpid} (opType : WkOp) (u : P2p) (st : STime)
    (isRend : Bool) (h : jobs.WorkOk d recv w) (hd : d ∈ jobs.lps)
    (hdest : jobs.lpidOf (jobs.appId d) u.destRank = .ok dest)
    (hsource : isRend = false → u.sourceRank = jobs.localRank d)
    (hrend : isRend = true → jobs.ctx.eagerThreshold ≤ u.numBytes ∧
      w.m.matchedReq = reqInt recv.reqId) :
    ∀ x ∈ events d recv (sendOuts (jobs.atTime now) w prio dest opType u st isRend),
      jobs.EventOk x.1 x.2 := by
  have hself (hr : isRend = false) : ∃ y ∈ jobs.lps, jobs.appId y = w.r.s.appId ∧
      toInt (ofInt u.sourceRank) = jobs.localRank y ∧
        jobs.lpidOf w.r.s.appId u.destRank = .ok dest := by
    refine ⟨d, hd, h.appId.symm, ?_, by rw [h.appId]; exact hdest⟩
    rw [hsource hr]
    exact toInt_ofInt (jobs.localRank_nonneg d hd) (jobs.localRank_lt d hd)
  unfold sendOuts
  split_ifs with hshort hctl
  · have hr : isRend = false := Bool.eq_false_iff.2 fun h => not_le.2 hshort (hrend h).1
    simp only [events, List.forall_mem_cons]
    exact ⟨hself hr, .inr hshort, by simp⟩
  · simp only [events, List.forall_mem_cons]
    exact ⟨hself hctl, by simp⟩
  · simp only [events, List.forall_mem_cons]
    exact ⟨(hrend (by simpa using hctl)).2, .inl rfl, by simp⟩

theorem ok_codesExecMpiSend {opType : WkOp} {u : P2p} {st : STime} {isRend : Bool}
    (h : jobs.WorkOk d recv w) (hd : d ∈ jobs.lps)
    (hsource : isRend = false → u.sourceRank = jobs.localRank d)
    (hrend : isRend = true → jobs.ctx.eagerThreshold ≤ u.numBytes ∧
      w.m.matchedReq = reqInt recv.reqId)
    (hsend : codesExecMpiSend (jobs.atTime now) w opType u st isRend = .ok w') :
    jobs.WorkOk d recv w' := by
  obtain ⟨hsame, prio, dest, hdest, houts⟩ := codesExecMpiSend_ok hsend
  have hto : jobs.lpidOf (jobs.appId d) u.destRank = .ok dest := by
    rw [← h.appId, ← hdest]
    rfl
  rw [List.append_assoc] at houts
  refine h.same hsame houts (List.forall_mem_append.2 ⟨?_, ?_⟩)
  · rw [List.forall_mem_singleton]
    exact ok_sendOuts prio opType u st isRend h hd hto hsource hrend
  · split_ifs
    · simpa [events, EventOk] using hd
    · simp

/-- The next operation. -/
theorem ok_execOp {op : WorkloadOp} (h : jobs.WorkOk d (posted now op) w) (hr : jobs.Ready d w.r op)
    (hop : execOp (jobs.atTime now) w op = .ok w') : jobs.WorkOk d (posted now op) w' := by
  have hexec := execOp_executed hr.waitOp hr.directorEnabled hr.known hop
  clear hop
  cases hexec with
  | next o ho hsame houts =>
    refine h.same hsame houts ?_
    obtain rfl | ⟨ts, rfl⟩ := ho
    · simpa [events, EventOk] using hr.mem
    · simpa [events, EventOk] using hr.mem
  | wait w₁ e hsame houts hq hmoves hw' =>
    subst hw'
    have h₁ : jobs.WorkOk d (posted now op) w₁ :=
      h.same hsame (by rw [houts, List.append_nil]) (by simp)
    refine h₁.withEv hr.mem hmoves ?_ (by simp)
    rw [(Prod.mk.inj hq).1]
    exact h₁.arrivals
  | recv u opType hop w₁ e hsame houts he hw' =>
    subst hw'
    have h₁ : jobs.WorkOk d (posted now op) w₁ :=
      h.same hsame (by rw [houts, List.append_nil]) (by simp)
    obtain ⟨rfl, rfl⟩ | ⟨rfl, rfl⟩ := hop
    · exact ok_codesExecMpiRecv h₁ hr.mem he
    · exact ok_codesExecMpiRecv h₁ hr.mem he
  | send u opType hop hsend =>
    have hsource : u.sourceRank = jobs.localRank d :=
      hr.sender u (hop.imp (fun h => h.1.symm) fun h => h.1.symm)
    exact ok_codesExecMpiSend h hr.mem (fun _ => hsource) (fun h => by cases h) hsend
  | finish hend =>
    obtain ⟨hkeeps, hs, -, l, houts, hl⟩ := execEnd_ok hend
    refine ⟨hkeeps.appId.trans h.appId, hkeeps.directorEnabled.trans h.directorEnabled, ?_, ?_⟩
    · rw [hs]
      exact h.arrivals
    · rw [houts]
      refine List.forall_mem_append.2 ⟨h.sent, fun o ho => ?_⟩
      obtain ⟨dest, rfl⟩ := hl o ho
      simp [events]

theorem ok_execMpiOp {op : WorkloadOp} (h : jobs.WorkOk d (posted now op) w)
    (hr : jobs.Ready d w.r op) (hop : execMpiOp (jobs.atTime now) w op = .ok w') :
    jobs.WorkOk d (posted now op) w' := by
  unfold execMpiOp at hop
  dsimp only at hop
  rw [if_neg fun hdirector =>
    Bool.false_ne_true (hr.directorEnabled.symm.trans hdirector.2.2)] at hop
  generalize hw₁ : (Work.mk _ _ _ _ _ _ _) = w₁ at hop
  have hrank : w₁.r = w.r := by rw [← hw₁]; rfl
  have houts : w₁.outs = w.outs := by rw [← hw₁]; rfl
  refine ok_execOp ⟨?_, ?_, ?_, ?_⟩ (by rw [hrank]; exact hr) hop
  · rw [hrank]; exact h.appId
  · rw [hrank]; exact h.directorEnabled
  · rw [hrank]; exact h.arrivals
  · rw [houts]; exact h.sent

theorem ok_handleSendPosted {rendSend : Bool} (h : jobs.WorkOk d recv w) (hd : d ∈ jobs.lps) :
    jobs.WorkOk d recv (handleSendPosted (jobs.atTime now).toReplayCtx w rendSend) := by
  unfold handleSendPosted
  dsimp only
  split_ifs
  · exact h.counted hd ⟨⟨rfl, rfl, rfl⟩, rfl, rfl⟩ rfl
  · generalize hw₁ : (w.setOpBf fun b => { b with c28 := true }) = w₁
    have h₁ : jobs.WorkOk d recv w₁ := by
      subst hw₁
      exact ⟨h.appId, h.directorEnabled, h.arrivals, h.sent⟩
    have hq := queues_updateCompletedQueue (jobs.atTime now).now w₁.ev w₁.m.reqId
    refine h₁.withEv hd (moves_updateCompletedQueue _ w₁.ev w₁.m.reqId) ?_ (by simp)
    rw [(Prod.mk.inj hq).1]
    exact h₁.arrivals
  · exact h

/-- **What is known stays known.** -/
theorem ok_handler (hn : jobs.NodeOk d node) (he : jobs.EventOk d e)
    (hnext : e = .getNext → node.r.s.waitOp = none ∧ node.r.t.isFinished = false)
    (h : nwTestEventHandler (jobs.atTime now) k node.r (nwEvent node e) = .ok w') :
    jobs.WorkOk d (receive now node e) w' := by
  have hd := hn.mem h
  have happ := hn.appId_eq hd
  unfold nwTestEventHandler at h
  split_ifs at h
  dsimp only at h
  have hstart : jobs.WorkOk d (receive now node e)
      (Work.start (node.r.gc k) (nwEvent node e).msg) :=
    ⟨happ, hn.directorEnabled, hn.arrivals, by simp [Work.start]⟩
  cases e with
  | getNext =>
    obtain ⟨hwait, hfin⟩ := hnext rfl
    exact ok_execMpiOp hstart (hn.ready hd hwait hfin) h
  | sendArrived m =>
    obtain ⟨ev, hev, rfl⟩ := map_eq_ok h
    have happm : jobs.appId d = m.appId := happ.symm.trans (moves_updateArrivalQueue hev).1
    refine ok_updateArrivalQueue hstart hd rfl (he.arrival happm) (fun index qi hqi => ?_) hev
    change firstMatch _ 0 node.r.s.pendingRecvsQueue = _ at hqi
    rw [receive, hqi]
  | sendPosted m =>
    obtain rfl := Except.ok.inj h
    exact ok_handleSendPosted hstart hd
  | rendAck a recv =>
    have hlong : jobs.ctx.eagerThreshold ≤ a.p2p.numBytes := he.1
    have hreq : a.nwMsg.matchedReq = reqInt recv.reqId := he.2
    exact ok_codesExecMpiSend hstart hd (fun h => by cases h) (fun _ => ⟨hlong, hreq⟩) h
  | rendArrived m recv =>
    obtain ⟨ev, hev, rfl⟩ := map_eq_ok h
    obtain ⟨hq, hmoves⟩ := moves_handleRendArrived hev
    refine hstart.withEv hd hmoves ?_ (by simp)
    rw [(Prod.mk.inj hq).1]
    exact hn.arrivals

/-! ### Runs -/

/-- The invariant of the ranks. -/
structure Inv (jobs : Jobs) (net : Net (fun _ : Lpid => Node) Event) : Prop where
  ok : All (fun d node => jobs.NodeOk d node) (fun d e => jobs.EventOk d e) net
  token : ∀ t ∈ jobs.lps, jobs.tokens t net = 1
  resumed : ∀ d, (net.nodes d).stalled = 0

variable {net net' : Net (fun _ : Lpid => Node) Event} {ω : Env} {node' : Node} {outs : Events}

theorem Inv.next (h : jobs.Inv net) (hd : (d, .getNext) ∈ net.inFlight) :
    (net.nodes d).r.s.waitOp = none ∧ (net.nodes d).r.t.isFinished = false := by
  have hmem : d ∈ jobs.lps := h.ok.2 _ hd
  have htoken := h.token d hmem
  have hflight : 1 ≤ flightSum (jobs.carried d) net.inFlight := by
    simpa [carried] using le_flightSum (jobs.carried d) hd
  have hheld : jobs.held d d (net.nodes d).r ≤
      nodeSum jobs.lps.toFinset (fun i node => jobs.held d i node.r) net :=
    le_nodeSum (fun i node => jobs.held d i node.r) (List.mem_toFinset.2 hmem) net
  rw [tokens] at htoken
  rw [held_eq, if_pos rfl] at hheld
  constructor
  · by_contra hwait
    rw [if_pos (Option.isSome_iff_ne_none.2 hwait)] at hheld
    omega
  · by_contra hfin
    rw [Bool.not_eq_false] at hfin
    rw [hfin, if_pos rfl] at hheld
    omega

theorem Inv.singleToken (h : jobs.Inv net) : jobs.SingleToken net where
  token := h.token
  noWait _ hd := (h.next hd).1
  resumed := h.resumed

theorem handle_ok (h : jobs.handle ω d node e = some (node', outs)) : ∃ w,
    nwTestEventHandler (jobs.atTime ω.now) ω.kept node.r (nwEvent node e) = .ok w ∧
      node'.r = w.r ∧ node'.trace = traceAfter node e ∧
      outs = w.outs.flatMap (events d (receive ω.now node e)) ∧
      node'.stalled = if IsPayload e ∧
      (d, .getNext) ∉ outs then node.stalled + 1 else node.stalled := by
  unfold handle at h
  split at h
  · cases h
  · rename_i w hw
    obtain ⟨rfl, rfl⟩ := Prod.mk.inj (Option.some.inj h)
    exact ⟨w, hw, rfl, rfl, rfl, rfl⟩

/-- The rank goes on when the data for a blocking receive come with a negative request. -/
theorem payload_resumes (he : jobs.EventOk d e) (hsign : jobs.brought d d e = jobs.carried d d e)
    (hpayload : IsPayload e)
    (hw : nwTestEventHandler (jobs.atTime now) k node.r (nwEvent node e) = .ok w) :
    (d, .getNext) ∈ w.outs.flatMap (events d recv) := by
  cases e with
  | rendArrived m recv =>
    have hblocking : recv.opType = .recv := hpayload
    have hneg : reqInt recv.reqId < 0 := by
      by_contra hneg
      simp [brought, carried, hblocking, hneg] at hsign
    unfold nwTestEventHandler at hw
    split_ifs at hw
    obtain ⟨ev, hev, rfl⟩ := map_eq_ok hw
    have hreq : m.matchedReq = reqInt recv.reqId := he
    have hnext := handleRendArrived_resumes (by rw [← hreq] at hneg; exact hneg) hev
    exact List.mem_flatMap.2 ⟨.queues .getNext,
      List.mem_append.2 (.inr (List.mem_map.2 ⟨_, hnext, rfl⟩)), List.mem_singleton.2 rfl⟩
  | getNext => cases hpayload
  | sendArrived m => cases hpayload
  | sendPosted m => cases hpayload
  | rendAck a recv => cases hpayload

/-- **What an event does to the tokens.** -/
theorem Inv.tokens_step {rest : Events} (h : jobs.Inv net)
    (hh : jobs.system.Handled net net' ω d e node' outs rest)
    (hperm : net.inFlight.Perm ((d, e) :: rest)) (t : Lpid) :
    jobs.tokens t net' + jobs.carried t d e = jobs.tokens t net + jobs.brought t d e := by
  obtain ⟨w, hw, hr, -, houts, -⟩ := handle_ok hh.handle
  have hmem : (d, e) ∈ net.inFlight := hperm.mem_iff.2 List.mem_cons_self
  have hn := h.ok.1 d
  have he : jobs.EventOk d e := h.ok.2 _ hmem
  have hbalance := balance (t := t) hn he (fun hnext => h.next (hnext ▸ hmem)) hw
  have htotal := hh.total (A := jobs.lps.toFinset) (fun i node => jobs.held t i node.r)
    (jobs.carried t) (List.mem_toFinset.2 (hn.mem hw))
  rw [sent, ← houts, ← hr] at hbalance
  have hflight := flightSum_perm (jobs.carried t) hperm
  rw [flightSum_cons] at hflight
  rw [tokens, tokens, hflight]
  omega

/-- **A step.** -/
theorem Inv.step {rest : Events} (h : jobs.Inv net)
    (hh : jobs.system.Handled net net' ω d e node' outs rest)
    (hperm : net.inFlight.Perm ((d, e) :: rest))
    (hsign : ∀ t, jobs.brought t d e = jobs.carried t d e) : jobs.Inv net' := by
  obtain ⟨w, hw, hr, htrace, houts, hstalled⟩ := handle_ok hh.handle
  have hmem : (d, e) ∈ net.inFlight := hperm.mem_iff.2 List.mem_cons_self
  have hn := h.ok.1 d
  have he : jobs.EventOk d e := h.ok.2 _ hmem
  have hd := hn.mem hw
  have hwork := ok_handler hn he (fun hnext => h.next (hnext ▸ hmem)) hw
  refine ⟨h.ok.step hh (fun x hx => hperm.mem_iff.2 (List.mem_cons_of_mem _ hx)) ?_ ?_, ?_, ?_⟩
  · refine ⟨?_, ?_, ?_, ?_⟩
    · rw [hr, if_pos hd]
      exact hwork.appId
    · rw [hr]
      exact hwork.directorEnabled
    · rw [htrace]
      intro op hop
      cases e with
      | getNext => exact hn.trace op (List.mem_of_mem_tail hop)
      | sendArrived m => exact hn.trace op hop
      | sendPosted m => exact hn.trace op hop
      | rendAck a recv => exact hn.trace op hop
      | rendArrived m recv => exact hn.trace op hop
    · rw [hr]
      exact hwork.arrivals
  · rw [houts]
    intro x hx
    obtain ⟨o, ho, hxo⟩ := List.mem_flatMap.1 hx
    exact hwork.sent o ho x hxo
  · intro t ht
    have htokens := h.tokens_step hh hperm t
    rw [hsign t, h.token t ht] at htokens
    omega
  · intro i
    by_cases hi : i = d
    · subst hi
      rw [hh.node_self, hstalled, if_neg ?_]
      · exact h.resumed i
      · rintro ⟨hpayload, hnone⟩
        rw [houts] at hnone
        exact hnone (payload_resumes he (hsign i) hpayload hw)
    · rw [hh.node_of_ne hi]
      exact h.resumed i

theorem SignTells.brought {l : NetLabel Lpid Event Env} (h : SignTells net l)
    (hl : net.event l = some (d, e)) (t : Lpid) : jobs.brought t d e = jobs.carried t d e := by
  cases e with
  | rendArrived m recv => simp only [Jobs.brought, carried, h d m recv hl]
  | getNext => rfl
  | sendArrived m => rfl
  | sendPosted m => rfl
  | rendAck a recv => rfl

/-- The rank that handles the event sees whether the condition holds. -/
theorem signTells_of_brought {l : NetLabel Lpid Event Env} (hl : net.event l = some (d, e))
    (h : jobs.brought d d e = jobs.carried d d e) : SignTells net l := by
  intro d' m recv hl'
  obtain ⟨rfl, rfl⟩ := Prod.mk.inj (Option.some.inj (hl.symm.trans hl'))
  by_contra hsign
  by_cases hneg : reqInt recv.reqId < 0
  · have hblocking : recv.opType ≠ .recv := fun hb => hsign ⟨fun _ => hb, fun _ => hneg⟩
    simp [brought, carried, hneg, hblocking] at h
  · have hblocking : recv.opType = .recv := by
      by_contra hb
      exact hsign ⟨fun hn => absurd hn hneg, fun hb' => absurd hb' hb⟩
    simp [brought, carried, hneg, hblocking] at h

theorem inv_init (jobs : Jobs) : jobs.Inv jobs.init := by
  refine ⟨⟨fun d => ?_, ?_⟩, fun t ht => ?_, fun d => ?_⟩
  · by_cases hd : d ∈ jobs.lps
    · refine ⟨?_, ?_, ?_, ?_⟩ <;> simp [init, hd, Rank.init]
    · refine ⟨?_, ?_, ?_, ?_⟩ <;> simp [init, hd, Rank.init]
  · intro x hx
    obtain ⟨d, hd, rfl⟩ := List.mem_map.1 hx
    exact hd
  · have hheld : nodeSum jobs.lps.toFinset (fun d node => jobs.held t d node.r) jobs.init = 0 := by
      refine Finset.sum_eq_zero fun d hd => ?_
      simp [init, List.mem_toFinset.1 hd, held_eq, Rank.init]
    have hflight : flightSum (jobs.carried t) jobs.init.inFlight = jobs.lps.count t := by
      change flightSum _ (jobs.lps.map _) = _
      generalize jobs.lps = lps
      induction lps with
      | nil => rfl
      | cons d lps ih =>
        rw [List.map_cons, flightSum_cons, ih, List.count_cons, add_comm]
        simp [carried]
    rw [tokens, hheld, hflight, List.count_eq_one_of_mem jobs.nodup ht]
  · simp only [init]
    split_ifs <;> rfl

/-- **A single token.**  In a run of the ranks, whatever their traces and the order of the events,
each rank has exactly one token in every state, if and only if the sign of the request told for each
long message whether its receive blocks. -/
theorem single_token_iff (jobs : Jobs) {ls : List (NetLabel Lpid Event Env)}
    (hls : ∀ l ∈ ls, ∃ i ω, l = .deliver i ω)
    (hrun : jobs.system.machine.run jobs.init ls = some net) :
    jobs.system.machine.Along jobs.SingleToken jobs.init ls ↔
      jobs.system.machine.Meets SignTells jobs.init ls := by
  refine Machine.along_iff_meets (I := jobs.Inv) ?_ ?_ (fun _ h => h.singleToken)
    (inv_init jobs) hls hrun
  · rintro net _ net' h ⟨i, ω, rfl⟩ hsign hstep
    obtain ⟨ω, d, e, node', outs, rest, hh, hevent, hcases⟩ := step_handles hstep
    obtain ⟨hl, -⟩ | ⟨-, hperm⟩ := hcases
    · cases hl
    · exact h.step hh hperm (hsign.brought hevent)
  · rintro net _ net' h ⟨i, ω, rfl⟩ hsign hstep hsingle
    obtain ⟨ω, d, e, node', outs, rest, hh, hevent, hcases⟩ := step_handles hstep
    obtain ⟨hl, -⟩ | ⟨-, hperm⟩ := hcases
    · cases hl
    · obtain ⟨w, hw, -⟩ := handle_ok hh.handle
      have hd : d ∈ jobs.lps := (h.ok.1 d).mem hw
      have htokens := h.tokens_step hh hperm d
      rw [hsingle.token d hd, h.token d hd] at htokens
      have heq : jobs.brought d d e = jobs.carried d d e := by omega
      exact hsign (signTells_of_brought hevent heq)

/-- The condition can be checked. -/
instance (net : Net (fun _ : Lpid => Node) Event) (l : NetLabel Lpid Event Env) :
    Decidable (SignTells net l) :=
  match hl : net.event l with
  | some (_, .rendArrived _ recv) =>
    decidable_of_iff (reqInt recv.reqId < 0 ↔ recv.opType = .recv)
      ⟨fun h d m r hr => by
        obtain ⟨-, hr⟩ := Prod.mk.inj (Option.some.inj (hl.symm.trans hr))
        obtain ⟨-, rfl⟩ := Event.rendArrived.inj hr
        exact h, fun h => h _ _ _ hl⟩
  | some (_, .getNext) => isTrue fun d m r hr => by rw [hl] at hr; cases hr
  | some (_, .sendArrived _) => isTrue fun d m r hr => by rw [hl] at hr; cases hr
  | some (_, .sendPosted _) => isTrue fun d m r hr => by rw [hl] at hr; cases hr
  | some (_, .rendAck _ _) => isTrue fun d m r hr => by rw [hl] at hr; cases hr
  | none => isTrue fun d m r hr => by rw [hl] at hr; cases hr

/-- Two ranks on a node. -/
def twoRankCtx : RankCtx where
  conf := [⟨"G", 1, [⟨"nw-lp", none, 2⟩]⟩]
  eagerThreshold := 8192
  enableMsgTracking := false
  prioritizeCollectives := false
  globalIdOfJobRank := none
  now := 0
  disableDelay := false
  computeTimeSpeedup := 1
  enableSampling := false
  samplingInterval := 5000000
  copySamples := fun _ samples => samples

theorem twoRanks_nodup : ([0, 1] : List Lpid).Nodup := by decide

theorem twoRanks_nonneg : ∀ d ∈ ([0, 1] : List Lpid), 0 ≤ (d.toNat : ℤ) :=
  fun _ _ => Int.natCast_nonneg _

theorem twoRanks_lt : ∀ d ∈ ([0, 1] : List Lpid), (d.toNat : ℤ) < 2 ^ 31 :=
  List.forall_mem_cons.2 ⟨by decide, List.forall_mem_singleton.2 (by decide)⟩

theorem twoRanks_lpid : ∀ d ∈ ([0, 1] : List Lpid), rankToLpid twoRankCtx.toReplayCtx
    (globalRank twoRankCtx.toReplayCtx 0 (d.toNat : ℤ)) = .ok d :=
  List.forall_mem_cons.2 ⟨by decide +kernel, List.forall_mem_singleton.2 (by decide +kernel)⟩

/-- Rank 1 sends a long message for a blocking receive of rank 0. -/
def longMessage (reqId : UInt32) : Jobs where
  ctx := twoRankCtx
  lps := [0, 1]
  appId _ := 0
  localRank d := d.toNat
  qosLevel _ := 0
  trace d := if d = 0 then [.recv ⟨1, 0, 10000, 7, reqId⟩] else [.send ⟨1, 0, 10000, 7, 0⟩]
  nodup := twoRanks_nodup
  localRank_nonneg := twoRanks_nonneg
  localRank_lt := twoRanks_lt
  lpid := twoRanks_lpid
  sender := by
    intro d hd u hu
    obtain rfl | rfl : d = 0 ∨ d = 1 := by simpa using hd
    · simp at hu
    · obtain rfl : u = ⟨1, 0, 10000, 7, 0⟩ := by simpa using hu
      rfl
  known := by
    intro d hd n hn
    obtain rfl | rfl : d = 0 ∨ d = 1 := by simpa using hd
    · simp at hn
    · simp at hn

/-- The events are delivered in the order they were sent. -/
def inOrder (n : ℕ) : List (NetLabel Lpid Event Env) := List.replicate n (.deliver 0 ⟨1, ⟨0, 0, 0⟩⟩)

/-- With the request -1 both ranks come to the end. -/
theorem single_token_iff_negative : ∃ net,
    (longMessage 4294967295).system.machine.run (longMessage 4294967295).init (inOrder 8) =
    some net ∧
      (longMessage 4294967295).system.machine.Along (longMessage 4294967295).SingleToken
        (longMessage 4294967295).init (inOrder 8) := by
  have hsome : ((longMessage 4294967295).system.machine.run (longMessage 4294967295).init
      (inOrder 8)).isSome := by decide +kernel
  obtain ⟨net, hnet⟩ := Option.isSome_iff_exists.1 hsome
  have hls : ∀ l ∈ inOrder 8, ∃ i ω, l = .deliver i ω := fun l hl =>
    ⟨_, _, List.eq_of_mem_replicate hl⟩
  exact ⟨net, hnet, (single_token_iff (longMessage 4294967295) hls hnet).2 (by decide +kernel)⟩

/-- With the request 5 the data come, and rank 0 has not finished and has nothing to wait for. -/
theorem rank_stops : ∃ net,
    (longMessage 5).system.machine.run (longMessage 5).init (inOrder 7) = some net ∧
      net.inFlight.length = 0 ∧ (net.nodes 0).r.t.isFinished = false ∧
        ¬(longMessage 5).SingleToken net := by
  have hstate : ((longMessage 5).system.machine.run (longMessage 5).init (inOrder 7)).map
      (fun net => (net.inFlight.length, (net.nodes 0).r.t.isFinished,
        (longMessage 5).tokens 0 net)) = some (0, false, 0) := by decide +kernel
  obtain ⟨net, hnet, hvalues⟩ := Option.map_eq_some_iff.1 hstate
  simp only [Prod.mk.injEq] at hvalues
  obtain ⟨hflight, hfin, htokens⟩ := hvalues
  refine ⟨net, hnet, hflight, hfin, fun h => ?_⟩
  have hone := h.token 0 (by decide)
  omega

end Jobs

end CodesSim.Replay
