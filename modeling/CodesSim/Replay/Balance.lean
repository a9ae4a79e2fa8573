import CodesSim.Lib.Slots
import CodesSim.Replay.ControlToken
import CodesSim.Replay.Ranks

/-!
# The token in an event

A handler neither makes nor loses a token: what its rank holds afterwards and what it sends is what
the rank held and the event brought (`Jobs.balance`).  Each operation and each message has a lemma
of its own.
-/

namespace CodesSim.Replay

open CodesMapping LpSystem Outcome

/-! ### The balance of an event -/

namespace Jobs

variable {jobs : Jobs} {t d : Lpid} {recv : QMsg} {w w' : Work} {r r' : Rank}

/-- The tokens of LP `t` in what a handler sends. -/
def sent (jobs : Jobs) (t d : Lpid) (recv : QMsg) (outs : List RankOut) : ℕ :=
  flightSum (jobs.carried t) (outs.flatMap (events d recv))

theorem sent_append (l l' : List RankOut) :
    jobs.sent t d recv (l ++ l') = jobs.sent t d recv l + jobs.sent t d recv l' := by
  rw [sent, List.flatMap_append, flightSum_append]
  rfl

theorem sent_nil : jobs.sent t d recv [] = 0 := rfl

theorem sent_next : jobs.sent t d recv [.queues .getNext] = if d = t then 1 else 0 := by
  simp [sent, events, carried]

/-- A rank survives as an unsigned number. -/
theorem toInt_ofInt {i : ℤ} (h0 : 0 ≤ i) (h : i < 2 ^ 31) : toInt (ofInt i) = i := by
  lift i to ℕ using h0
  rw [ofInt_natCast, toInt_word (by exact_mod_cast h)]

theorem sent_queues (l : List NwOut) : jobs.sent t d recv (l.map .queues) =
    (if d = t then l.count .getNext else 0) +
      jobs.sent t d recv ((l.filter NwOut.isAck).map .queues) := by
  induction l with
  | nil => simp [sent]
  | cons o l ih =>
    rw [List.map_cons, ← List.singleton_append, sent_append, ih]
    cases o with
    | getNext =>
      rw [sent_next]
      simp only [List.count_cons_self, List.filter_cons, NwOut.isAck, Bool.false_eq_true, if_false]
      split_ifs <;> omega
    | arrivedCb dest time =>
      have hnone : jobs.sent t d recv [.queues (.arrivedCb dest time)] = 0 := rfl
      simp [hnone, NwOut.isAck]
    | ack prio dest a =>
      have hcons : ((NwOut.ack prio dest a :: l).filter NwOut.isAck).map RankOut.queues =
          [.queues (.ack prio dest a)] ++ (l.filter NwOut.isAck).map .queues := rfl
      rw [hcons, sent_append]
      simp only [List.count_cons, beq_iff_eq, reduceCtorEq, if_false, add_zero]
      omega

theorem held_withEv {n : ℕ} {l : List NwOut} {e : Ev} (houts : w.outs = [])
    (h : w.ev.Moves e n l) : jobs.held t d (w.withEv e).r + jobs.sent t d recv (w.withEv e).outs =
      (if d = t then (if w.r.s.waitOp.isSome then 1 else 0) + (if w.r.t.isFinished then 1 else 0) +
        n + e.s.pendingRecvsQueue.countP (fun q => q.opType = .recv) else 0) +
      e.s.arrivalQueue.countP (jobs.announced t (jobs.appId d)) +
      jobs.sent t d recv (l.map .queues) := by
  have hsent : (w.withEv e).outs = e.outs.map .queues := by
    rw [Work.withEv, houts]
    rfl
  have hcontrol : (if e.s.waitOp.isSome then 1 else 0) + e.outs.count .getNext =
      (if w.r.s.waitOp.isSome then 1 else 0) + n := h.control
  have hacks : e.outs.filter NwOut.isAck = l := h.acks
  rw [hsent, sent_queues, hacks, held, own]
  change (if d = t then (if e.s.waitOp.isSome then 1 else 0) +
    (if w.r.t.isFinished then 1 else 0) + _ else 0) + _ + _ = _
  by_cases hd : d = t
  · simp only [if_pos hd]
    change _ + _ + e.s.pendingRecvsQueue.countP _ + e.s.arrivalQueue.countP _ + _ = _
    omega
  · simp only [if_neg hd]
    change 0 + e.s.arrivalQueue.countP _ + _ = _
    omega

/-- What is known of a message in the queue of LP `d`. -/
def ArrivalOk (jobs : Jobs) (d : Lpid) (q : QMsg) : Prop :=
  ∃ y ∈ jobs.lps, jobs.appId y = jobs.appId d ∧ q.sourceRank = jobs.localRank y ∧
    jobs.lpidOf (jobs.appId d) q.destRank = .ok d

variable {q : QMsg} {dest : Lpid}

theorem ArrivalOk.sender (h : jobs.ArrivalOk d q)
    (hdest : jobs.lpidOf (jobs.appId d) q.sourceRank = .ok dest) :
    jobs.appId dest = jobs.appId d := by
  obtain ⟨y, hy, happ, hsource, -⟩ := h
  rw [hsource, ← happ] at hdest
  obtain rfl : y = dest := Except.ok.inj ((jobs.lpid y hy).symm.trans hdest)
  exact happ

theorem sent_ack (prio : String) (req : ℤ) (h : jobs.ArrivalOk d q)
    (hdest : jobs.lpidOf (jobs.appId d) q.sourceRank = .ok dest) :
    jobs.sent t d recv [.queues (.ack prio dest (ackOf q req))] =
      (if q.opType = .send ∧ dest = t then 1 else 0) +
        if recv.opType = .recv ∧ d = t then 1 else 0 := by
  have happ := h.sender hdest
  obtain ⟨-, -, -, -, hto⟩ := h
  simp [sent, events, carried, ackOf, happ, hto]

theorem announced_of_long (hlong : jobs.ctx.eagerThreshold ≤ q.numBytes)
    (hdest : jobs.lpidOf (jobs.appId d) q.sourceRank = .ok dest) :
    jobs.announced t (jobs.appId d) q = decide (q.opType = .send ∧ dest = t) := by
  simp [announced, hlong, hdest]

theorem announced_of_short (hshort : q.numBytes < jobs.ctx.eagerThreshold) (app : ℤ) :
    jobs.announced t app q = false := by
  simp [announced, not_le.2 hshort]

theorem held_same (h : r.SameWork r') : jobs.held t d r' = jobs.held t d r := by
  simp only [held, own, h.s, h.isFinished]

/-- The tokens in a message that a send hands to model-net, and in what follows from it: the token
of a blocking send and, in the data of a long message, that of a blocking receive. -/
theorem sent_sendOuts {now : STime} (prio : String) (dest : Lpid) (opType : WkOp) (u : P2p)
    (st : STime) (isRend : Bool) (hd : d ∈ jobs.lps) (happ : w.r.s.appId = jobs.appId d)
    (hsource : isRend = false → u.sourceRank = jobs.localRank d)
    (hlong : isRend = true → jobs.ctx.eagerThreshold ≤ u.numBytes) :
    jobs.sent t d recv [sendOuts (jobs.atTime now) w prio dest opType u st isRend] =
      (if opType = .send ∧ d = t then 1 else 0) +
        if isRend = true ∧ recv.opType = .recv ∧ dest = t then 1 else 0 := by
  by_cases hshort : u.numBytes < jobs.ctx.eagerThreshold
  · have hnot : ¬ jobs.ctx.eagerThreshold ≤ u.numBytes := not_le.2 hshort
    have hisRend : isRend = false := Bool.eq_false_iff.2 fun h => hnot (hlong h)
    rw [sendOuts, if_pos (by exact hshort)]
    simp [sent, events, carried, sentMsg, hnot, hisRend]
  · rw [sendOuts, if_neg (by exact hshort)]
    cases hr : isRend with
    | false =>
      -- the announcement names the rank that sends, whose LP is found again
      have hrank : toInt (ofInt u.sourceRank) = jobs.localRank d := by
        rw [hsource hr]
        exact toInt_ofInt (jobs.localRank_nonneg d hd) (jobs.localRank_lt d hd)
      have hself : jobs.lpidOf (jobs.appId d) (jobs.localRank d) = .ok d := jobs.lpid d hd
      simp [sent, events, carried, sentMsg, happ, hrank, hself, not_lt.1 hshort]
    | true => simp [sent, events, carried, sentMsg, add_comm]

theorem held_eq (r : Rank) : jobs.held t d r =
    (if d = t then (if r.s.waitOp.isSome then 1 else 0) + (if r.t.isFinished then 1 else 0) +
      r.s.pendingRecvsQueue.countP (fun q => q.opType = .recv) else 0) +
      r.s.arrivalQueue.countP (jobs.announced t (jobs.appId d)) := by
  rw [held, own]

/-- A message that came and was matched: the token of its sender goes back, and that of a blocking
receive goes on. -/
theorem balance_matched {now : STime} {e e' : Ev} {qi msg : QMsg} {n : ℕ} (houts : w.outs = [])
    (happ : w.r.s.appId = jobs.appId d) (hok : jobs.ArrivalOk d msg)
    (h : Ev.Matches (jobs.atTime now).toReplayCtx w.ev e msg qi
      (if qi.opType = .recv then 1 else 0))
    (hnext : e.Moves e' n []) :
    jobs.held t d (w.withEv e').r + jobs.sent t d qi (w.withEv e').outs =
      (if d = t then (if w.r.s.waitOp.isSome then 1 else 0) + (if w.r.t.isFinished then 1 else 0) +
        n + (if qi.opType = .recv then 1 else 0) +
        e'.s.pendingRecvsQueue.countP (fun q => q.opType = .recv) else 0) +
      e'.s.arrivalQueue.countP (jobs.announced t (jobs.appId d)) +
      if jobs.announced t (jobs.appId d) msg then 1 else 0 := by
  by_cases hlong : jobs.ctx.eagerThreshold ≤ msg.numBytes
  · obtain ⟨prio, dest, hdest, hack⟩ := h.long hlong
    have hdest' : jobs.lpidOf (jobs.appId d) msg.sourceRank = .ok dest := by
      rw [← happ, ← hdest]
      rfl
    rw [held_withEv houts (hack.trans hnext), announced_of_long hlong hdest']
    change _ + jobs.sent t d qi [.queues (.ack prio dest (ackOf msg (reqInt qi.reqId)))] = _
    rw [sent_ack prio _ hok hdest']
    simp only [decide_eq_true_eq]
    by_cases hd : d = t
    · simp only [hd, and_true, if_true]
      omega
    · simp only [hd, and_false, if_false]
      omega
  · have hmoves := (h.short (not_le.1 hlong)).trans hnext
    rw [held_withEv houts hmoves, announced_of_short (not_le.1 hlong)]
    change _ + jobs.sent t d qi [] = _
    rw [sent_nil, if_neg Bool.false_ne_true]
    split_ifs <;> omega

variable {m : SentMsg}

/-- **A message arrives.** -/
theorem balance_updateArrivalQueue {now : STime} {e' : Ev} (houts : w.outs = [])
    (hm : w.m = m.nwMsg) (happ : w.r.s.appId = jobs.appId d) (hok : jobs.ArrivalOk d m.nwMsg.entry)
    (hrecv : ∀ index qi, firstMatch (fun qi => fits qi m.nwMsg.entry) 0 w.r.s.pendingRecvsQueue =
      some (index, qi) → recv = qi)
    (h : updateArrivalQueue (jobs.atTime now).toReplayCtx w.ev = .ok e') :
    jobs.held t d (w.withEv e').r + jobs.sent t d recv (w.withEv e').outs =
      jobs.held t d w.r + jobs.carried t d (.sendArrived m) := by
  obtain ⟨happ', hqueues⟩ := moves_updateArrivalQueue h
  have hentry : w.ev.m.entry = m.nwMsg.entry := congrArg NwMsg.entry hm
  have hcarried : jobs.carried t d (.sendArrived m) =
      if jobs.announced t (jobs.appId d) m.nwMsg.entry then 1 else 0 := by
    have happm : m.appId = jobs.appId d := by
      rw [← happ, show m.appId = w.m.appId by rw [hm]; rfl]
      exact happ'.symm
    simp [carried, announced, happm, NwMsg.entry, SentMsg.nwMsg]
  rw [hcarried, held_eq w.r]
  rw [hentry] at hqueues
  split at hqueues
  · obtain ⟨hq, hmoves⟩ := hqueues
    obtain ⟨ha, hp⟩ := Prod.mk.inj hq
    rw [held_withEv houts hmoves, ha, hp, List.countP_append, List.countP_singleton]
    change _ + jobs.sent t d recv [] = _
    rw [sent_nil]
    simp only [Work.ev, add_zero]
    omega
  · rename_i index qi hsome
    obtain ⟨hq, hmatch⟩ := hqueues
    obtain ⟨ha, hp⟩ := Prod.mk.inj hq
    have hget : w.r.s.pendingRecvsQueue[index]? = some qi := (firstMatch_getElem? hsome).2
    have hcount := Slots.countP_eraseIdx hget fun q => decide (q.opType = .recv)
    simp only [decide_eq_true_eq] at hcount
    rw [hrecv index qi hsome, balance_matched houts happ hok hmatch (.same rfl rfl rfl), ha, hp]
    simp only [Work.ev]
    split_ifs at hcount ⊢ <;> omega

/-- **A receive is posted.** -/
theorem balance_codesExecMpiRecv {now : STime} {e' : Ev} {u : P2p} {opType : WkOp}
    (houts : w.outs = []) (happ : w.r.s.appId = jobs.appId d)
    (hop : opType = .recv ∨ opType = .irecv)
    (hok : ∀ q ∈ w.r.s.arrivalQueue, jobs.ArrivalOk d q)
    (h : codesExecMpiRecv (jobs.atTime now).toReplayCtx w.ev (u.recvOp opType) = .ok e') :
    jobs.held t d (w.withEv e').r +
        jobs.sent t d ((u.recvOp opType).entry now) (w.withEv e').outs =
      jobs.held t d w.r + if d = t then 1 else 0 := by
  have hqueues := moves_codesExecMpiRecv h
  have hkind : (if (u.recvOp opType).opType = .irecv then 1 else 0) +
      (if ((u.recvOp opType).entry now).opType = .recv then 1 else 0) = 1 := by
    obtain rfl | rfl := hop <;> rfl
  rw [held_eq w.r]
  split at hqueues
  · obtain ⟨hq, hmoves⟩ := hqueues
    obtain ⟨ha, hp⟩ := Prod.mk.inj hq
    rw [held_withEv houts hmoves, ha, hp, List.countP_append, List.countP_singleton]
    change _ + jobs.sent t d _ [] = _
    rw [sent_nil]
    simp only [Work.ev, decide_eq_true_eq]
    by_cases hd : d = t
    · simp only [if_pos hd]
      change _ + (if ((u.recvOp opType).entry now).opType = .recv then 1 else 0) = 1 at hkind
      change _ + (_ + if ((u.recvOp opType).entry now).opType = .recv then 1 else 0) + _ + 0 = _
      omega
    · simp only [if_neg hd]
  · rename_i index qi hsome
    obtain ⟨hq, e₁, hmatch, hmoves⟩ := hqueues
    obtain ⟨ha, hp⟩ := Prod.mk.inj hq
    have hget : w.r.s.arrivalQueue[index]? = some qi := (firstMatch_getElem? hsome).2
    have hcount := Slots.countP_eraseIdx hget (jobs.announced t (jobs.appId d))
    refine (balance_matched houts happ (hok qi (List.mem_of_getElem? hget)) hmatch hmoves).trans ?_
    rw [ha, hp, hcount]
    change (if d = t then _ + (if ((u.recvOp opType).entry now).opType = .recv then 1 else 0) + _
      else 0) + _ + _ = _
    by_cases hd : d = t
    · simp only [if_pos hd, Work.ev]
      omega
    · simp only [if_neg hd, Work.ev]
      omega

/-- A handler that leaves the queues alone: the tokens are in what it sends. -/
theorem balance_same {l : List RankOut} {n : ℕ} (h : w.r.SameWork w'.r) (houts : w'.outs = l)
    (hsent : jobs.sent t d recv l = n) :
    jobs.held t d w'.r + jobs.sent t d recv w'.outs = jobs.held t d w.r + n := by
  rw [held_same h, houts, hsent]

theorem balance_counted (h : w.r.SameWork w'.r) (houts : w'.outs = [.queues .getNext]) :
    jobs.held t d w'.r + jobs.sent t d recv w'.outs =
      jobs.held t d w.r + if d = t then 1 else 0 :=
  balance_same h houts sent_next

section

variable (houts : w.outs = [])
include houts

theorem balance_wait {e : Ev} (hq : e.queues = w.ev.queues) (h : w.ev.Moves e 1 []) :
    jobs.held t d (w.withEv e).r + jobs.sent t d recv (w.withEv e).outs =
      jobs.held t d w.r + if d = t then 1 else 0 := by
  obtain ⟨ha, hp⟩ := Prod.mk.inj hq
  rw [held_withEv houts h, held_eq w.r, ha, hp]
  change _ + jobs.sent t d recv [] = _
  rw [sent_nil]
  simp only [Work.ev]
  split_ifs <;> omega

theorem balance_execEnd {c : RankCtx} (hfin : w.r.t.isFinished = false)
    (h : execEnd c w = .ok w') : jobs.held t d w'.r + jobs.sent t d recv w'.outs =
      jobs.held t d w.r + if d = t then 1 else 0 := by
  obtain ⟨-, hs, hfin', l, hsent, hl⟩ := execEnd_ok h
  have hnone : jobs.sent t d recv l = 0 := by
    have hevents : l.flatMap (events d recv) = [] := by
      refine List.flatMap_eq_nil_iff.2 fun o ho => ?_
      obtain ⟨dest, rfl⟩ := hl o ho
      rfl
    rw [sent, hevents, flightSum_nil]
  rw [hsent, houts, List.nil_append, hnone, held_eq w'.r, held_eq w.r, hs, hfin', hfin]
  simp only [if_true, Bool.false_eq_true, if_false]
  split_ifs <;> omega

theorem balance_send {now : STime} {opType : WkOp} {u : P2p}
    (hd : d ∈ jobs.lps) (happ : w.r.s.appId = jobs.appId d)
    (hsource : u.sourceRank = jobs.localRank d)
    (hop : opType = .send ∨ opType = .isend)
    (h : codesExecMpiSend (jobs.atTime now) w opType u 0 false = .ok w') :
    jobs.held t d w'.r + jobs.sent t d recv w'.outs =
      jobs.held t d w.r + if d = t then 1 else 0 := by
  obtain ⟨hsame, prio, dest, -, hsent⟩ := codesExecMpiSend_ok h
  have hout : jobs.sent t d recv [sendOuts (jobs.atTime now) w prio dest opType u 0 false] = _ :=
    sent_sendOuts prio dest opType u 0 false hd happ (fun _ => hsource) (fun h => by cases h)
  rw [houts, List.nil_append] at hsent
  refine balance_same hsame hsent ?_
  rw [sent_append, hout]
  obtain rfl | rfl := hop
  · simp [sent_nil]
  · simp [sent_next]

/-- The data of a long message are sent, for the receive that has asked for them. -/
theorem balance_rendAck {now : STime} {a : AckMsg} (hd : d ∈ jobs.lps)
    (happ : w.r.s.appId = jobs.appId d) (hlong : jobs.ctx.eagerThreshold ≤ a.numBytes)
    (h : codesExecMpiSend (jobs.atTime now) w a.opType a.p2p a.simStartTime true = .ok w') :
    jobs.held t d w'.r + jobs.sent t d recv w'.outs =
      jobs.held t d w.r + jobs.carried t d (.rendAck a recv) := by
  obtain ⟨hsame, prio, dest, hdest, hsent⟩ := codesExecMpiSend_ok h
  have hout : jobs.sent t d recv
      [sendOuts (jobs.atTime now) w prio dest a.opType a.p2p a.simStartTime true] = _ :=
    sent_sendOuts prio dest a.opType a.p2p a.simStartTime true hd happ (fun h => by cases h)
      fun _ => hlong
  have hto : jobs.lpidOf (jobs.appId d) a.destRank = .ok dest := by
    rw [← happ, ← hdest]
    rfl
  have hnot : ¬ a.numBytes < jobs.ctx.eagerThreshold := not_lt.2 hlong
  have hnext : ¬ (a.opType = .isend ∧
      (true = false ∨ decide (a.p2p.numBytes < (jobs.atTime now).eagerThreshold) = true)) := by
    rintro ⟨-, h | h⟩
    · cases h
    · exact hnot (of_decide_eq_true h)
  rw [houts, List.nil_append, if_neg hnext, List.append_nil] at hsent
  refine balance_same hsame hsent ?_
  rw [hout, carried, hto]
  simp

theorem balance_sendPosted {now : STime} (hm : w.m = m.nwMsg)
    (hover : m.rendSend = true ∨ m.numBytes < jobs.ctx.eagerThreshold) :
    let w' := handleSendPosted (jobs.atTime now).toReplayCtx w m.rendSend
    jobs.held t d w'.r + jobs.sent t d recv w'.outs =
      jobs.held t d w.r + jobs.carried t d (.sendPosted m) := by
  have hop : w.m.opType = m.opType := by rw [hm]; rfl
  have hlocal : decide (w.m.numBytes < (jobs.atTime now).eagerThreshold) = true ∨
      m.rendSend = true := by
    rw [hm]
    exact hover.symm.imp_left decide_eq_true
  have hcarried : jobs.carried t d (.sendPosted m) =
      if w.m.opType = .send ∧ d = t then 1 else 0 := by
    rw [hop]
    rfl
  unfold handleSendPosted
  dsimp only
  rw [hcarried]
  by_cases hsend : w.m.opType = .send
  · rw [if_pos ⟨hsend, hlocal⟩]
    have hnext : jobs.held t d ((w.setBf fun b => { b with c29 := true }).issueNext).r +
        jobs.sent t d recv ((w.setBf fun b => { b with c29 := true }).issueNext).outs = _ :=
      balance_counted (w := w) ⟨⟨rfl, rfl, rfl⟩, rfl, rfl⟩
        (congrArg (· ++ [RankOut.queues .getNext]) houts)
    simpa only [hsend, true_and] using hnext
  · simp only [hsend, false_and, if_false]
    split_ifs
    · -- a request is completed, and with it perhaps the wait for it
      generalize hw₁ : (w.setOpBf fun b => { b with c28 := true }) = w₁
      have hr : w₁.r = w.r := by rw [← hw₁]; rfl
      have houts₁ : w₁.outs = [] := by rw [← hw₁]; exact houts
      have hq := queues_updateCompletedQueue now w₁.ev w₁.m.reqId
      have hmoves := moves_updateCompletedQueue now w₁.ev w₁.m.reqId
      obtain ⟨ha, hp⟩ := Prod.mk.inj hq
      rw [← hr, held_eq w₁.r]
      refine (held_withEv houts₁ hmoves).trans ?_
      rw [ha, hp]
      rfl
    · exact balance_same ⟨⟨rfl, rfl, rfl⟩, rfl, rfl⟩ houts sent_nil

/-- The data of a long message come. -/
theorem balance_handleRendArrived {now : STime} {e : Ev}
    (h : handleRendArrived (jobs.atTime now).toReplayCtx w.ev = .ok e) :
    jobs.held t d (w.withEv e).r + jobs.sent t d recv (w.withEv e).outs =
      jobs.held t d w.r + if w.m.matchedReq < 0 ∧ d = t then 1 else 0 := by
  obtain ⟨hq, hmoves⟩ := moves_handleRendArrived h
  obtain ⟨ha, hp⟩ := Prod.mk.inj hq
  have hreq : w.ev.m.matchedReq = w.m.matchedReq := rfl
  rw [held_withEv houts hmoves, held_eq w.r, ha, hp, hreq]
  change _ + jobs.sent t d recv [] = _
  rw [sent_nil]
  simp only [Work.ev]
  by_cases hd : d = t
  · simp only [hd, and_true]
    split_ifs <;> omega
  · simp only [hd, and_false, if_false]

end

/-- What is known of a rank when it takes the next operation. -/
structure Ready (jobs : Jobs) (d : Lpid) (r : Rank) (op : WorkloadOp) : Prop where
  mem : d ∈ jobs.lps
  appId : r.s.appId = jobs.appId d
  waitOp : r.s.waitOp = none
  isFinished : r.t.isFinished = false
  directorEnabled : r.directorEnabled = false
  arrivals : ∀ q ∈ r.s.arrivalQueue, jobs.ArrivalOk d q
  sender : ∀ u, .send u = op ∨ .isend u = op → u.sourceRank = jobs.localRank d
  known : ∀ n, .invalid n ≠ op

/-- The receive that an operation posts. -/
def posted (now : STime) : WorkloadOp → QMsg
  | .recv u => (u.recvOp .recv).entry now
  | .irecv u => (u.recvOp .irecv).entry now
  | _ => default

/-- **The next operation.**  The token that comes with it is handed on. -/
theorem balance_execOp {now : STime} {op : WorkloadOp} (houts : w.outs = [])
    (hr : jobs.Ready d w.r op) (h : execOp (jobs.atTime now) w op = .ok w') :
    jobs.held t d w'.r + jobs.sent t d (posted now op) w'.outs =
      jobs.held t d w.r + if d = t then 1 else 0 := by
  cases execOp_executed hr.waitOp hr.directorEnabled hr.known h with
  | next o ho hsame hsent =>
    rw [houts, List.nil_append] at hsent
    refine balance_same hsame hsent ?_
    obtain rfl | ⟨ts, rfl⟩ := ho
    · exact sent_next
    · simp [sent, events, carried]
  | wait w₁ e hsame houts₁ hq hmoves hw' =>
    subst hw'
    rw [← held_same hsame]
    exact balance_wait (houts₁.trans houts) hq hmoves
  | recv u opType hop w₁ e hsame houts₁ he hw' =>
    subst hw'
    rw [← held_same hsame]
    have happ : w₁.r.s.appId = jobs.appId d := hsame.appId.trans hr.appId
    have harrivals : ∀ q ∈ w₁.r.s.arrivalQueue, jobs.ArrivalOk d q := by
      rw [hsame.s]
      exact hr.arrivals
    obtain ⟨rfl, rfl⟩ | ⟨rfl, rfl⟩ := hop
    · exact balance_codesExecMpiRecv (houts₁.trans houts) happ (.inl rfl) harrivals he
    · exact balance_codesExecMpiRecv (houts₁.trans houts) happ (.inr rfl) harrivals he
  | send u opType hop h =>
    obtain ⟨rfl, rfl⟩ | ⟨rfl, rfl⟩ := hop
    · exact balance_send houts hr.mem hr.appId (hr.sender u (.inl rfl)) (.inl rfl) h
    · exact balance_send houts hr.mem hr.appId (hr.sender u (.inr rfl)) (.inr rfl) h
  | finish h => exact balance_execEnd houts hr.isFinished h

/-- `MPI_OP_GET_NEXT`. -/
theorem balance_execMpiOp {now : STime} {op : WorkloadOp} (houts : w.outs = [])
    (hr : jobs.Ready d w.r op) (h : execMpiOp (jobs.atTime now) w op = .ok w') :
    jobs.held t d w'.r + jobs.sent t d (posted now op) w'.outs =
      jobs.held t d w.r + if d = t then 1 else 0 := by
  unfold execMpiOp at h
  dsimp only at h
  rw [if_neg fun hdirector => Bool.false_ne_true (hr.directorEnabled.symm.trans hdirector.2.2)] at h
  generalize hw₁ : (Work.mk _ _ _ _ _ _ _) = w₁ at h
  have hrank : w₁.r = w.r := by rw [← hw₁]; rfl
  have houts₁ : w₁.outs = [] := by rw [← hw₁]; exact houts
  rw [← hrank] at hr ⊢
  exact balance_execOp houts₁ hr h

/-! ### What is known of the ranks and of the events in flight -/

/-- What is known of LP `d`. -/
structure NodeOk (jobs : Jobs) (d : Lpid) (node : Node) : Prop where
  appId : node.r.s.appId = if d ∈ jobs.lps then jobs.appId d else -1
  directorEnabled : node.r.directorEnabled = false
  trace : ∀ op ∈ node.trace, op ∈ jobs.trace d
  arrivals : ∀ q ∈ node.r.s.arrivalQueue, jobs.ArrivalOk d q

/-- What is known of an event on its way to LP `d`. -/
def EventOk (jobs : Jobs) (d : Lpid) : Event → Prop
  | .getNext => d ∈ jobs.lps
  | .sendArrived m => ∃ y ∈ jobs.lps, jobs.appId y = m.appId ∧ toInt m.srcRank = jobs.localRank y ∧
      jobs.lpidOf m.appId m.destRank = .ok d
  | .sendPosted m => m.rendSend = true ∨ m.numBytes < jobs.ctx.eagerThreshold
  | .rendAck a recv => jobs.ctx.eagerThreshold ≤ a.numBytes ∧ a.matchedReq = reqInt recv.reqId
  | .rendArrived m recv => m.matchedReq = reqInt recv.reqId

variable {now : STime} {k : Kept} {node : Node} {e : Event}

theorem NodeOk.mem (hn : jobs.NodeOk d node)
    (h : nwTestEventHandler (jobs.atTime now) k node.r (nwEvent node e) = .ok w') :
    d ∈ jobs.lps := by
  by_contra hd
  unfold nwTestEventHandler at h
  have happ := hn.appId
  rw [if_neg hd] at happ
  rw [if_neg fun hids => by omega] at h
  cases h

theorem NodeOk.appId_eq (hn : jobs.NodeOk d node) (hd : d ∈ jobs.lps) :
    node.r.s.appId = jobs.appId d := by
  rw [hn.appId, if_pos hd]

theorem NodeOk.ready (hn : jobs.NodeOk d node) (hd : d ∈ jobs.lps)
    (hwait : node.r.s.waitOp = none) (hfin : node.r.t.isFinished = false) :
    jobs.Ready d (node.r.gc k) (nextOp node.trace) := by
  have hop {op : WorkloadOp} (h : op = nextOp node.trace) (hne : op ≠ .wkEnd) :
      op ∈ jobs.trace d := by
    subst h
    unfold nextOp at hne ⊢
    cases htrace : node.trace with
    | nil =>
      rw [htrace] at hne
      exact absurd rfl hne
    | cons op ops =>
      rw [List.headD_cons]
      exact hn.trace op (by rw [htrace]; exact List.mem_cons_self)
  exact {
    mem := hd
    appId := hn.appId_eq hd
    waitOp := hwait
    isFinished := hfin
    directorEnabled := hn.directorEnabled
    arrivals := hn.arrivals
    sender u hu := jobs.sender d hd u (hu.imp (fun h => hop h (by simp)) fun h => hop h (by simp))
    known n h := jobs.known d hd n (hop h (by simp)) }

theorem EventOk.arrival (he : jobs.EventOk d (.sendArrived m))
    (happ : jobs.appId d = m.appId) : jobs.ArrivalOk d m.nwMsg.entry := by
  obtain ⟨y, hy, hyapp, hsource, hto⟩ := he
  have hrank : m.nwMsg.entry.sourceRank = toInt m.srcRank := by
    simp only [NwMsg.entry, SentMsg.nwMsg]
  exact ⟨y, hy, hyapp.trans happ.symm, hrank.trans hsource, by rw [happ]; exact hto⟩

/-- The tokens that an event gives to the rank that handles it: the data of a long message resume
the rank when the request is negative. -/
def brought (jobs : Jobs) (t d : Lpid) : Event → ℕ
  | .rendArrived _ recv => if reqInt recv.reqId < 0 ∧ d = t then 1 else 0
  | e => jobs.carried t d e

/-- **The balance of an event.** -/
theorem balance (hn : jobs.NodeOk d node) (he : jobs.EventOk d e)
    (hnext : e = .getNext → node.r.s.waitOp = none ∧ node.r.t.isFinished = false)
    (h : nwTestEventHandler (jobs.atTime now) k node.r (nwEvent node e) = .ok w') :
    jobs.held t d w'.r + jobs.sent t d (receive now node e) w'.outs =
      jobs.held t d node.r + jobs.brought t d e := by
  have hd := hn.mem h
  have happ := hn.appId_eq hd
  unfold nwTestEventHandler at h
  split_ifs at h
  dsimp only at h
  have hheld : jobs.held t d (Work.start (node.r.gc k) (nwEvent node e).msg).r =
      jobs.held t d node.r := rfl
  rw [← hheld]
  cases e with
  | getNext =>
    obtain ⟨hwait, hfin⟩ := hnext rfl
    exact balance_execMpiOp rfl (hn.ready hd hwait hfin) h
  | sendArrived m =>
    obtain ⟨ev, hev, rfl⟩ := map_eq_ok h
    have happm : jobs.appId d = m.appId := happ.symm.trans (moves_updateArrivalQueue hev).1
    refine balance_updateArrivalQueue rfl rfl happ (he.arrival happm) (fun index qi hqi => ?_) hev
    change firstMatch _ 0 node.r.s.pendingRecvsQueue = _ at hqi
    rw [receive, hqi]
  | sendPosted m =>
    obtain rfl := Except.ok.inj h
    exact balance_sendPosted rfl rfl he
  | rendAck a recv => exact balance_rendAck rfl hd happ he.1 h
  | rendArrived m recv =>
    obtain ⟨ev, hev, rfl⟩ := map_eq_ok h
    have hreq : m.nwMsg.matchedReq = reqInt recv.reqId := he
    rw [brought, ← hreq]
    exact balance_handleRendArrived rfl hev

end Jobs

end CodesSim.Replay
