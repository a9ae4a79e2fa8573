import CodesSim.Lib.Outcome
import CodesSim.Replay.Handler
import CodesSim.Replay.Matching

/-!
# The control token in the handlers

A rank works on one operation at a time.  What says where its trace goes on is handed from one
handler to the next: a wait that is set, an `MPI_OP_GET_NEXT`, or an acknowledgement that the other
side of a long message answers.  `Ev.Moves` counts what a part of a handler does to it.

* `moves_updateArrivalQueue`, `moves_codesExecMpiRecv` : a message arrives, a receive is posted;
* `moves_codesExecMpiWait`, `moves_codesExecMpiWaitAll` : the rank waits;
* `moves_handleRendArrived` : the data of a long message come;
* `codesExecMpiSend_ok` : a send hands one message to model-net.
-/

namespace CodesSim.Replay

open CodesMapping Outcome

/-! ### The token in the handlers -/

section Moves

variable {c : ReplayCtx} {e e₁ e₂ e' : Ev} {n n₁ n₂ : ℕ} {l l₁ l₂ : List NwOut}

/-- A wait, or the next operation on its way. -/
def Ev.control (e : Ev) : ℕ := (if e.s.waitOp.isSome then 1 else 0) + e.outs.count .getNext

/-- An acknowledgement. -/
def NwOut.isAck : NwOut → Bool
  | .ack _ _ _ => true
  | _ => false

/-- What a part of a handler does to the token: `n` times the rank is told to go on, beyond the
waits that it ends, and acknowledgements are sent. -/
structure Ev.Moves (e e' : Ev) (n : ℕ) (l : List NwOut) : Prop where
  appId : e'.s.appId = e.s.appId
  control : e'.control = e.control + n
  acks : e'.outs.filter NwOut.isAck = e.outs.filter NwOut.isAck ++ l

theorem Ev.Moves.trans (h₁ : e.Moves e₁ n₁ l₁) (h₂ : e₁.Moves e₂ n₂ l₂) :
    e.Moves e₂ (n₁ + n₂) (l₁ ++ l₂) where
  appId := h₂.appId.trans h₁.appId
  control := by rw [h₂.control, h₁.control, add_assoc]
  acks := by rw [h₂.acks, h₁.acks, List.append_assoc]

theorem Ev.Moves.same (happ : e'.s.appId = e.s.appId) (hwait : e'.s.waitOp = e.s.waitOp)
    (houts : e'.outs = e.outs) : e.Moves e' 0 [] where
  appId := happ
  control := by rw [Ev.control, hwait, houts]; rfl
  acks := by rw [houts, List.append_nil]

theorem Ev.Moves.of_same (h : e₁.Moves e' n l) (happ : e₁.s.appId = e.s.appId)
    (hwait : e₁.s.waitOp = e.s.waitOp) (houts : e₁.outs = e.outs) : e.Moves e' n l where
  appId := h.appId.trans happ
  control := by rw [h.control, Ev.control, hwait, houts]; rfl
  acks := by rw [h.acks, houts]

theorem Ev.Moves.then_same (h : e.Moves e₁ n l) (happ : e'.s.appId = e₁.s.appId)
    (hwait : e'.s.waitOp = e₁.s.waitOp) (houts : e'.outs = e₁.outs) : e.Moves e' n l := by
  have h' := h.trans (.same happ hwait houts)
  rwa [add_zero, List.append_nil] at h'

theorem moves_next (e : Ev) : e.Moves (codesIssueNextEvent e) 1 [] where
  appId := rfl
  control := by
    rw [Ev.control, Ev.control, add_assoc]
    simp [codesIssueNextEvent, Ev.send]
    rfl
  acks := by simp [codesIssueNextEvent, Ev.send, NwOut.isAck]

theorem moves_callback (e : Ev) (dest : Lpid) (t : STime) :
    e.Moves (e.send (.arrivedCb dest t)) 0 [] where
  appId := rfl
  control := by
    simp [Ev.control, Ev.send]
    rfl
  acks := by simp [Ev.send, NwOut.isAck]

theorem moves_finishWait (now : STime) {w : PendingWaits} (h : e.s.waitOp.isSome) :
    e.Moves (finishWait now e w) 0 [] where
  appId := rfl
  control := by
    simp [Ev.control, finishWait, codesIssueNextEvent, Ev.send, Ev.setBf, Ev.setMsg, Ev.setState,
      NwState.setSample, h, add_comm]
  acks := by simp [finishWait, codesIssueNextEvent, Ev.send, Ev.setBf, Ev.setMsg, Ev.setState,
    NwOut.isAck]

theorem moves_notifyPostedWait (e : Ev) (req : UInt32) :
    (notifyPostedWait e req).1.s.appId = e.s.appId ∧
      (notifyPostedWait e req).1.s.waitOp.isSome = e.s.waitOp.isSome ∧
      (notifyPostedWait e req).1.outs = e.outs := by
  unfold notifyPostedWait
  dsimp only
  split
  · rename_i hw
    exact ⟨rfl, rfl, rfl⟩
  · rename_i w hw
    change e.s.waitOp = some w at hw
    split_ifs
    · exact ⟨rfl, rfl, rfl⟩
    · exact ⟨rfl, by rw [hw]; rfl, rfl⟩
    · exact ⟨rfl, rfl, rfl⟩

theorem moves_updateCompletedQueue (now : STime) (e : Ev) (req : UInt32) :
    e.Moves (updateCompletedQueue now e req) 0 [] := by
  unfold updateCompletedQueue
  dsimp only
  obtain ⟨happ, hwait, houts⟩ := moves_notifyPostedWait ((e.setBf fun b =>
    { b with c30 := false, c31 := false }).setMsg fun m => { m with numMatched := 0 }) req
  have hsame {e' : Ev} (happ : e'.s.appId = e.s.appId)
      (hwait : e'.s.waitOp.isSome = e.s.waitOp.isSome) (houts : e'.outs = e.outs) :
      e.Moves e' 0 [] :=
    ⟨happ, by rw [Ev.control, hwait, houts]; rfl, by rw [houts, List.append_nil]⟩
  split
  · rename_i w _ hw
    have hfinish := (hsame happ hwait houts).trans (moves_finishWait now (w := w) (by rw [hw]; rfl))
    exact hfinish
  · exact hsame happ hwait houts

theorem trackMessageSize_frame (c : ReplayCtx) (e : Ev) (q : QMsg) (isSend : Bool) :
    (trackMessageSize c e q isSend).s.appId = e.s.appId ∧
      (trackMessageSize c e q isSend).s.waitOp = e.s.waitOp ∧
      (trackMessageSize c e q isSend).outs = e.outs := by
  unfold trackMessageSize
  split_ifs
  · exact ⟨rfl, rfl, rfl⟩
  · exact ⟨rfl, rfl, rfl⟩

/-- The acknowledgement for a long message. -/
def ackOf (q : QMsg) (matchedReq : ℤ) : AckMsg :=
  ⟨q.reqInitTime, q.destRank, q.sourceRank, q.opType, q.tag, q.numBytes, q.reqId, matchedReq⟩

theorem moves_sendAckBack {q : QMsg} {req : ℤ} (h : sendAckBack c e q req = .ok e') :
    ∃ prio dest, rankToLpid c (globalRank c e.s.appId q.sourceRank) = .ok dest ∧
      e.Moves e' 0 [.ack prio dest (ackOf q req)] := by
  unfold sendAckBack at h
  split at h
  · cases h
  · rename_i dest hdest
    split at h
    · cases h
    · obtain rfl := Except.ok.inj h
      have hmoves (prio : String) : e.Moves (e.send (.ack prio dest (ackOf q req))) 0
          [.ack prio dest (ackOf q req)] :=
        ⟨rfl, by simp [Ev.control, Ev.send]; rfl, by simp [Ev.send, NwOut.isAck]⟩
      exact ⟨_, dest, hdest, hmoves _⟩

/-- What a match does: short messages complete the receive, long ones are asked for. -/
structure Ev.Matches (c : ReplayCtx) (e e' : Ev) (msg recv : QMsg) (n : ℕ) : Prop where
  short : msg.numBytes < c.eagerThreshold → e.Moves e' n []
  long : c.eagerThreshold ≤ msg.numBytes → ∃ prio dest,
    rankToLpid c (globalRank c e.s.appId msg.sourceRank) = .ok dest ∧
      e.Moves e' 0 [.ack prio dest (ackOf msg (reqInt recv.reqId))]

theorem moves_receiveMatched {qi q : QMsg} (h : receiveMatched c e qi q = .ok e') :
    Ev.Matches c e e' q qi (if qi.opType = .recv then 1 else 0) := by
  unfold receiveMatched at h
  dsimp only at h
  obtain ⟨happ, hwait, houts⟩ := trackMessageSize_frame c (e.setMsg fun m =>
    m.setRc fun rc => { rc with w4 := qi.numBytes }) q true
  split_ifs at h with hlong hirecv hrecv
  · obtain ⟨prio, dest, hdest, hack⟩ := moves_sendAckBack h
    refine ⟨fun hs => absurd hs (not_lt.2 hlong), fun _ => ⟨prio, dest, ?_, ?_⟩⟩
    · rw [← hdest]
      exact congrArg (fun a => rankToLpid c (globalRank c a q.sourceRank)) happ.symm
    · exact hack.of_same happ hwait houts
  · obtain rfl := Except.ok.inj h
    refine ⟨fun _ => ?_, fun hl => absurd hl hlong⟩
    rw [if_neg (by rw [hirecv]; decide)]
    exact (moves_updateCompletedQueue c.now _ qi.reqId).of_same happ hwait houts
  · obtain rfl := Except.ok.inj h
    refine ⟨fun _ => ?_, fun hl => absurd hl hlong⟩
    rw [if_pos hrecv]
    exact (moves_next _).of_same happ hwait houts
  · obtain rfl := Except.ok.inj h
    refine ⟨fun _ => ?_, fun hl => absurd hl hlong⟩
    rw [if_neg hrecv]
    exact .same happ hwait houts

theorem moves_setMsg (e : Ev) (f : NwMsg → NwMsg) : e.Moves (e.setMsg f) 0 [] := .same rfl rfl rfl

theorem moves_setBf (e : Ev) (f : NwBf → NwBf) : e.Moves (e.setBf f) 0 [] := .same rfl rfl rfl

theorem moves_trackMessageSize (c : ReplayCtx) (e : Ev) (q : QMsg) (isSend : Bool) :
    e.Moves (trackMessageSize c e q isSend) 0 [] := by
  obtain ⟨happ, hwait, houts⟩ := trackMessageSize_frame c e q isSend
  exact .same happ hwait houts

theorem moves_addRecvTime (e : Ev) (time : STime) :
    e.Moves (addRecvTime (saveRecvTimeNext e) time) 0 [] := .same rfl rfl rfl

variable {now : STime}

theorem moves_completeRecv {q : QMsg} (h : (if q.opType = .irecv then
        .ok (updateCompletedQueue now (e.setBf fun b => { b with c29 := true }) q.reqId)
      else if q.opType = .recv then
        .ok (codesIssueNextEvent (e.setBf fun b => { b with c6 := true }))
      else .ok e : Except String Ev) = .ok e') :
    e.Moves e' (if q.opType = .recv then 1 else 0) [] := by
  split_ifs at h with hirecv hrecv
  · obtain rfl := Except.ok.inj h
    rw [if_neg (by rw [hirecv]; decide)]
    exact (moves_setBf e _).trans (moves_updateCompletedQueue now _ q.reqId)
  · obtain rfl := Except.ok.inj h
    rw [if_pos hrecv]
    exact (moves_setBf e _).trans (moves_next _)
  · obtain rfl := Except.ok.inj h
    rw [if_neg hrecv]
    exact .same rfl rfl rfl

theorem moves_messageMatched {qi q : QMsg} (h : messageMatched c e qi q = .ok e') :
    Ev.Matches c e e' qi q (if q.opType = .recv then 1 else 0) := by
  unfold messageMatched at h
  dsimp only at h
  have hstart := (moves_trackMessageSize c e qi false).trans
    (moves_setMsg _ fun m => { m with matchedReq := reqInt q.reqId })
  by_cases hlong : qi.numBytes ≥ c.eagerThreshold
  · rw [if_pos hlong] at h
    refine ⟨fun hs => absurd hs (not_lt.2 hlong), fun _ => ?_⟩
    split at h
    · cases h
    · rename_i e₁ hsent
      obtain rfl := Except.ok.inj h
      obtain ⟨prio, dest, hdest, hack⟩ := moves_sendAckBack hsent
      have hbits := hstart.trans (moves_setBf _ fun b => { b with c10 := true })
      rw [hbits.appId] at hdest
      exact ⟨prio, dest, hdest, (hbits.trans hack).trans (moves_addRecvTime e₁ _)⟩
  · rw [if_neg hlong] at h
    refine ⟨fun _ => ?_, fun hl => absurd hl hlong⟩
    have hmoves := (hstart.trans (moves_addRecvTime _ _)).trans (moves_completeRecv h)
    simpa using hmoves

theorem Ev.Matches.of_same {msg recv : QMsg} (h : Ev.Matches c e₁ e' msg recv n)
    (hsame : e.Moves e₁ 0 []) : Ev.Matches c e e' msg recv n where
  short hs := by simpa using hsame.trans (h.short hs)
  long hl := by
    obtain ⟨prio, dest, hdest, hack⟩ := h.long hl
    rw [hsame.appId] at hdest
    exact ⟨prio, dest, hdest, hsame.trans hack⟩

theorem Ev.Matches.then_same {msg recv : QMsg} (h : Ev.Matches c e e₁ msg recv n)
    (hsame : e₁.Moves e' 0 []) : Ev.Matches c e e' msg recv n where
  short hs := by simpa using (h.short hs).trans hsame
  long hl := by
    obtain ⟨prio, dest, hdest, hack⟩ := h.long hl
    exact ⟨prio, dest, hdest, by simpa using hack.trans hsame⟩

theorem moves_sendCallback (h : sendCallback c e = .ok e') : e.Moves e' 0 [] := by
  unfold sendCallback at h
  split_ifs at h
  · split at h
    · cases h
    · obtain rfl := Except.ok.inj h
      exact (moves_setBf e fun b => { b with c1 := true }).trans (moves_callback _ _ _)
  · obtain rfl := Except.ok.inj h
    exact .same rfl rfl rfl

/-- **A message arrives.** -/
theorem moves_updateArrivalQueue (h : updateArrivalQueue c e = .ok e') : e.s.appId = e.m.appId ∧
    match firstMatch (fun qi => fits qi e.m.entry) 0 e.s.pendingRecvsQueue with
    | none => e'.queues = (e.s.arrivalQueue ++ [e.m.entry], e.s.pendingRecvsQueue) ∧ e.Moves e' 0 []
    | some (index, qi) =>
      e'.queues = (e.s.arrivalQueue, e.s.pendingRecvsQueue.eraseIdx index) ∧
        Ev.Matches c e e' e.m.entry qi (if qi.opType = .recv then 1 else 0) := by
  have hqueues := updateArrivalQueue_ok h
  unfold updateArrivalQueue at h
  split_ifs at h with happ
  refine ⟨not_not.1 happ, ?_⟩
  split at h
  · cases h
  · rename_i e₁ hcb
    have hstart : e.Moves e₁ 0 [] :=
      (Ev.Moves.same rfl rfl rfl : e.Moves (countBytes (saveRecvTimeSend e)) 0 []).trans
        (moves_sendCallback hcb)
    obtain ⟨hq₁, hm₁⟩ := sendCallback_ok hcb
    have hentry : e₁.m.entry = e.m.entry := by rw [hm₁]; rfl
    have hp₁ : e₁.s.pendingRecvsQueue = e.s.pendingRecvsQueue := congrArg Prod.snd hq₁
    dsimp only at h
    split at h
    · cases h
    · rename_i e₂ k hrm
      have hend : e₂.Moves e' 0 [] := by
        split_ifs at h
        · obtain rfl := Except.ok.inj h
          exact .same rfl rfl rfl
        · obtain rfl := Except.ok.inj h
          exact moves_setMsg _ _
      rw [hentry] at hrm
      unfold rmMatchingRcv at hrm
      rw [hp₁] at hrm
      obtain ⟨hnone, -, hq⟩ | ⟨index, qi, hsome, -, hq⟩ := hqueues
      · rw [hnone] at hrm ⊢
        obtain ⟨rfl, -⟩ := Prod.mk.inj (Except.ok.inj hrm)
        exact ⟨hq, hstart.trans hend⟩
      · rw [hsome] at hrm ⊢
        dsimp only at hrm
        split at hrm
        · cases hrm
        · rename_i e₃ hmatched
          obtain ⟨rfl, -⟩ := Prod.mk.inj (Except.ok.inj hrm)
          have hmatch := (moves_receiveMatched hmatched).of_same hstart
          exact ⟨hq, hmatch.then_same (hend.of_same rfl rfl rfl)⟩

/-- **A receive is posted.** -/
theorem moves_codesExecMpiRecv {op : RecvOp} (h : codesExecMpiRecv c e op = .ok e') :
    match firstMatch (fun qi => fits (op.entry c.now) qi) 0 e.s.arrivalQueue with
    | none => e'.queues = (e.s.arrivalQueue, e.s.pendingRecvsQueue ++ [op.entry c.now]) ∧
        e.Moves e' (if op.opType = .irecv then 1 else 0) []
    | some (index, qi) => e'.queues = (e.s.arrivalQueue.eraseIdx index, e.s.pendingRecvsQueue) ∧
        ∃ e₁, Ev.Matches c e e₁ qi (op.entry c.now) (if op.opType = .recv then 1 else 0) ∧
          e₁.Moves e' (if op.opType = .irecv then 1 else 0) [] := by
  have hqueues := codesExecMpiRecv_ok h
  unfold codesExecMpiRecv at h
  dsimp only at h
  split at h
  · cases h
  · rename_i e₂ k hrm
    have hend : e₂.Moves e' (if op.opType = .irecv then 1 else 0) [] := by
      have hnext : e₂.Moves (if op.opType = .irecv then
          codesIssueNextEvent (e₂.setBf fun b => { b with c6 := true }) else e₂)
          (if op.opType = .irecv then 1 else 0) [] := by
        split_ifs
        · exact (moves_setBf e₂ _).trans (moves_next _)
        · exact .same rfl rfl rfl
      split_ifs at h hnext ⊢
      all_goals
        obtain rfl := Except.ok.inj h
        exact hnext.then_same rfl rfl rfl
    unfold rmMatchingSend at hrm
    rw [show (saveRecvTimeNext e).s.arrivalQueue = e.s.arrivalQueue from rfl] at hrm
    obtain ⟨hnone, -, hq⟩ | ⟨index, qi, hsome, -, hq⟩ := hqueues
    · rw [hnone] at hrm ⊢
      obtain ⟨rfl, -⟩ := Prod.mk.inj (Except.ok.inj hrm)
      exact ⟨hq, hend.of_same rfl rfl rfl⟩
    · rw [hsome] at hrm ⊢
      dsimp only at hrm
      split at hrm
      · cases hrm
      · rename_i e₃ hmatched
        obtain ⟨rfl, -⟩ := Prod.mk.inj (Except.ok.inj hrm)
        refine ⟨hq, _, (moves_messageMatched hmatched).of_same (.same rfl rfl rfl), ?_⟩
        exact hend.of_same rfl rfl rfl

theorem moves_codesExecMpiWait {req : UInt32} (h : codesExecMpiWait now e req = .ok e') :
    e'.queues = e.queues ∧ e.Moves e' 1 [] := by
  unfold codesExecMpiWait at h
  split at h
  · cases h
  · rename_i hw
    split at h
    · obtain rfl := Except.ok.inj h
      exact ⟨rfl, ((moves_next _).of_same rfl rfl rfl).then_same rfl rfl rfl⟩
    · obtain rfl := Except.ok.inj h
      refine ⟨rfl, rfl, ?_, ?_⟩
      · simp [Ev.control, Ev.setState, hw, add_comm]
      · simp [Ev.setState]

theorem moves_codesExecMpiWaitAll {reqs : List UInt32} (hw : e.s.waitOp = none)
    (h : codesExecMpiWaitAll now e reqs = .ok e') : e'.queues = e.queues ∧ e.Moves e' 1 [] := by
  unfold codesExecMpiWaitAll at h
  dsimp only at h
  split_ifs at h
  · obtain rfl := Except.ok.inj h
    exact ⟨rfl, (moves_next _).of_same rfl hw.symm rfl⟩
  · obtain rfl := Except.ok.inj h
    refine ⟨rfl, rfl, ?_, ?_⟩
    · simp [Ev.control, Ev.setState, Ev.setMsg, hw, add_comm]
    · simp [Ev.setState, Ev.setMsg]

/-- The data of a long message come. -/
theorem moves_handleRendArrived (h : handleRendArrived c e = .ok e') :
    e'.queues = e.queues ∧ e.Moves e' (if e.m.matchedReq ≥ 0 then 0 else 1) [] := by
  have htrack : ∃ e₀ : Ev, e₀ = (if c.enableMsgTracking then
      updateMessageSize c.now e e.m.entry true else e) ∧ e₀.queues = e.queues ∧ e₀.m = e.m ∧
      e.Moves e₀ 0 [] := by
    refine ⟨_, rfl, ?_⟩
    split_ifs
    · exact ⟨rfl, rfl, .same rfl rfl rfl⟩
    · exact ⟨rfl, rfl, .same rfl rfl rfl⟩
  obtain ⟨e₀, he₀, hq₀, hm₀, hmoves₀⟩ := htrack
  unfold handleRendArrived at h
  rw [← he₀] at h
  dsimp only at h
  split at h
  · cases h
  · rename_i dest _
    obtain rfl := Except.ok.inj h
    have hcb := hmoves₀.trans (moves_callback e₀ dest (c.now - e₀.m.simStartTime))
    generalize hsent : e₀.send (.arrivedCb dest (c.now - e₀.m.simStartTime)) = e₁ at hcb
    have hq₁ : e₁.queues = e.queues := by rw [← hsent, ← hq₀]; rfl
    have hm₁ : e₁.m.matchedReq = e.m.matchedReq := by rw [← hsent, ← hm₀]; rfl
    rw [← hm₁]
    -- the state after the payload is counted differs only in the receive times
    have hend (e₂ : Ev) (t : STime) : (addRecvTime (saveRecvTimeSend e₂) t).queues = e₂.queues ∧
        e₂.Moves (addRecvTime (saveRecvTimeSend e₂) t) 0 [] := ⟨rfl, .same rfl rfl rfl⟩
    split_ifs
    · have hmoves := (moves_setBf e₁ fun b => { b with c8 := true }).trans
        (moves_updateCompletedQueue c.now _ (UInt32.ofInt e₁.m.matchedReq))
      obtain ⟨hq, hsame⟩ := hend (updateCompletedQueue c.now
        (e₁.setBf fun b => { b with c8 := true }) (UInt32.ofInt e₁.m.matchedReq)) _
      rw [queues_updateCompletedQueue, queues_setBf, hq₁] at hq
      exact ⟨hq, by simpa using (hcb.trans hmoves).trans hsame⟩
    · have hmoves := (moves_setBf e₁ fun b => { b with c10 := true }).trans (moves_next _)
      obtain ⟨hq, hsame⟩ := hend (codesIssueNextEvent (e₁.setBf fun b => { b with c10 := true })) _
      rw [queues_codesIssueNextEvent, queues_setBf, hq₁] at hq
      exact ⟨hq, by simpa using (hcb.trans hmoves).trans hsame⟩

/-- The data of a long message tell the rank to go on when the request is negative. -/
theorem handleRendArrived_resumes (hreq : e.m.matchedReq < 0) (h : handleRendArrived c e = .ok e') :
    .getNext ∈ e'.outs := by
  unfold handleRendArrived at h
  generalize htrack : (if c.enableMsgTracking then updateMessageSize c.now e e.m.entry
    true else e) = e₀ at h
  have hm₀ : e₀.m = e.m := by
    rw [← htrack]
    split_ifs <;> rfl
  dsimp only at h
  split at h
  · cases h
  · rename_i dest _
    have hneg : ¬ (e₀.send (.arrivedCb dest (c.now - e₀.m.simStartTime))).m.matchedReq ≥ 0 := by
      change ¬ e₀.m.matchedReq ≥ 0
      rw [hm₀]
      omega
    rw [if_neg hneg] at h
    obtain rfl := Except.ok.inj h
    simp [addRecvTime, saveRecvTimeSend, Ev.setState, Ev.setMsg, codesIssueNextEvent, Ev.send]

end Moves

/-! ### Operations that leave the queues alone -/

section Sends

variable {c : RankCtx} {w w' : Work}

/-- What stays of a rank. -/
structure Rank.Keeps (r r' : Rank) : Prop where
  appId : r'.s.appId = r.s.appId
  localRank : r'.localRank = r.localRank
  directorEnabled : r'.directorEnabled = r.directorEnabled

/-- The queues of a rank and whether it has finished stay. -/
structure Rank.SameWork (r r' : Rank) : Prop extends Rank.Keeps r r' where
  s : r'.s = r.s
  isFinished : r'.t.isFinished = r.t.isFinished

/-- What a send hands to model-net. -/
def sendOuts (c : RankCtx) (w : Work) (prio : String) (dest : Lpid) (opType : WkOp) (u : P2p)
    (simStartTime : STime) (isRend : Bool) : RankOut :=
  if u.numBytes < c.eagerThreshold then .eager prio dest (sentMsg w opType u c.now)
  else if isRend = false then
    .control prio dest { sentMsg w opType u c.now with matchedReq := 0 }
  else .rendezvous prio dest { sentMsg w opType u simStartTime with rendSend := true }

theorem sendOuts_congr {w₁ : Work} (hs : w₁.r.s = w.r.s) (hm : w₁.m = w.m) :
    sendOuts c w₁ = sendOuts c w := by
  have hmsg : sentMsg w₁ = sentMsg w := by
    funext opType u st
    unfold sentMsg
    rw [hs, hm]
  unfold sendOuts
  rw [hmsg]

theorem sendMessage_ok (prio : String) (dest : Lpid) (opType : WkOp) (u : P2p) (st : STime)
    (isRend : Bool) : w.r.SameWork (sendMessage c w prio dest opType u st isRend).r ∧
      (sendMessage c w prio dest opType u st isRend).outs =
        w.outs ++ [sendOuts c w prio dest opType u st isRend] := by
  unfold sendMessage sendOuts
  split_ifs
  · exact ⟨⟨⟨rfl, rfl, rfl⟩, rfl, rfl⟩, rfl⟩
  · exact ⟨⟨⟨rfl, rfl, rfl⟩, rfl, rfl⟩, rfl⟩
  · exact ⟨⟨⟨rfl, rfl, rfl⟩, rfl, rfl⟩, rfl⟩

theorem endSend_ok (w : Work) (n : ℤ) (counted next : Prop) [Decidable counted] [Decidable next] :
    let w₁ := if counted then countSent w n else w
    let w₂ := if next then (w₁.setOpBf fun b => { b with c4 := true }).issueNext else w₁
    w.r.SameWork w₂.r ∧ w₂.outs = w.outs ++ if next then [.queues .getNext] else [] := by
  dsimp only
  split_ifs
  · exact ⟨⟨⟨rfl, rfl, rfl⟩, rfl, rfl⟩, rfl⟩
  · exact ⟨⟨⟨rfl, rfl, rfl⟩, rfl, rfl⟩, rfl⟩
  · exact ⟨⟨⟨rfl, rfl, rfl⟩, rfl, rfl⟩, (List.append_nil _).symm⟩
  · exact ⟨⟨⟨rfl, rfl, rfl⟩, rfl, rfl⟩, (List.append_nil _).symm⟩

theorem Rank.SameWork.trans {r r₁ r₂ : Rank} (h₁ : r.SameWork r₁) (h₂ : r₁.SameWork r₂) :
    r.SameWork r₂ where
  appId := h₂.appId.trans h₁.appId
  localRank := h₂.localRank.trans h₁.localRank
  directorEnabled := h₂.directorEnabled.trans h₁.directorEnabled
  s := h₂.s.trans h₁.s
  isFinished := h₂.isFinished.trans h₁.isFinished

theorem codesExecMpiSend_ok {opType : WkOp} {u : P2p} {st : STime} {isRend : Bool}
    (h : codesExecMpiSend c w opType u st isRend = .ok w') : w.r.SameWork w'.r ∧ ∃ prio dest,
      rankToLpid c.toReplayCtx (globalRank c.toReplayCtx w.r.s.appId u.destRank) = .ok dest ∧
      w'.outs = w.outs ++ [sendOuts c w prio dest opType u st isRend] ++
        if opType = .isend ∧ (isRend = false ∨ (decide (u.numBytes < c.eagerThreshold)) = true) then
          [.queues .getNext] else [] := by
  unfold codesExecMpiSend at h
  dsimp only at h
  split at h
  · cases h
  · rename_i prio₀ _
    split at h
    · cases h
    · rename_i dest hdest
      obtain ⟨p, b, hp⟩ := sampleSend_frame c _ _
      rw [hp] at h
      generalize hw₁ : Work.withSampling _ p b = w₁ at h
      have hstart : w.r.SameWork w₁.r := by
        rw [← hw₁]
        exact ⟨⟨rfl, rfl, rfl⟩, rfl, rfl⟩
      have hm : w₁.m = w.m := by rw [← hw₁]; rfl
      have houts₁ : w₁.outs = w.outs := by rw [← hw₁]; rfl
      generalize (if c.prioritizeCollectives = true ∧ (u.tag = colTag ∨ u.tag = barTag) then "high"
        else prio₀) = prio at h
      obtain ⟨hsend, hsent⟩ := sendMessage_ok (c := c) (w := w₁) prio dest opType u st isRend
      generalize sendMessage c w₁ prio dest opType u st isRend = w₂ at h hsend hsent
      obtain rfl := Except.ok.inj h
      obtain ⟨hend, houts⟩ := endSend_ok w₂ u.numBytes
        (isRend = true ∨ decide (u.numBytes < c.eagerThreshold) = true)
        (opType = .isend ∧ (isRend = false ∨ decide (u.numBytes < c.eagerThreshold) = true))
      refine ⟨hstart.trans (hsend.trans hend), prio, dest, hdest, houts.trans ?_⟩
      rw [hsent, houts₁, sendOuts_congr hstart.s hm]

theorem execAllreduce_ok (c : RankCtx) (w : Work) : w.r.SameWork (execAllreduce c w).r ∧
    (execAllreduce c w).outs = w.outs ++ [.queues .getNext] := by
  unfold execAllreduce
  dsimp only
  split_ifs
  · exact ⟨⟨⟨rfl, rfl, rfl⟩, rfl, rfl⟩, rfl⟩
  · exact ⟨⟨⟨rfl, rfl, rfl⟩, rfl, rfl⟩, rfl⟩

theorem execEnd_ok (h : execEnd c w = .ok w') : w.r.Keeps w'.r ∧ w'.r.s = w.r.s ∧
    w'.r.t.isFinished = true ∧
      ∃ l, w'.outs = w.outs ++ l ∧ ∀ o ∈ l, ∃ dest, o = .nbrFinish dest := by
  unfold execEnd at h
  dsimp only at h
  split at h
  · obtain rfl := Except.ok.inj h
    exact ⟨⟨rfl, rfl, rfl⟩, rfl, rfl, [], (List.append_nil _).symm, by simp⟩
  · split at h
    · cases h
    · rename_i dest _
      obtain rfl := Except.ok.inj h
      exact ⟨⟨rfl, rfl, rfl⟩, rfl, rfl, [.nbrFinish dest], rfl, by simp⟩

/-- What an operation of the trace does. -/
inductive Executed (c : RankCtx) (w : Work) (op : WorkloadOp) (w' : Work) : Prop
  /-- The rank goes on, now or later. -/
  | next (o : RankOut) (ho : o = .queues .getNext ∨ ∃ ts, o = .getNextAfter ts)
      (hsame : w.r.SameWork w'.r) (houts : w'.outs = w.outs ++ [o])
  /-- The rank waits. -/
  | wait (w₁ : Work) (e : Ev) (hsame : w.r.SameWork w₁.r) (houts : w₁.outs = w.outs)
      (hq : e.queues = w₁.ev.queues) (hmoves : w₁.ev.Moves e 1 []) (hw' : w' = w₁.withEv e)
  /-- A receive is posted. -/
  | recv (u : P2p) (opType : WkOp)
      (hop : op = .recv u ∧ opType = .recv ∨ op = .irecv u ∧ opType = .irecv) (w₁ : Work) (e : Ev)
      (hsame : w.r.SameWork w₁.r) (houts : w₁.outs = w.outs)
      (he : codesExecMpiRecv c.toReplayCtx w₁.ev (u.recvOp opType) = .ok e) (hw' : w' = w₁.withEv e)
  | send (u : P2p) (opType : WkOp)
      (hop : op = .send u ∧ opType = .send ∨ op = .isend u ∧ opType = .isend)
      (h : codesExecMpiSend c w opType u 0 false = .ok w')
  | finish (h : execEnd c w = .ok w')

/-- **The next operation.** -/
theorem execOp_executed {op : WorkloadOp} (hwait : w.r.s.waitOp = none)
    (hdirector : w.r.directorEnabled = false) (hknown : ∀ n, .invalid n ≠ op)
    (h : execOp c w op = .ok w') : Executed c w op w' := by
  -- the counters of the operation change first
  have hcount (f : Tallies → Tallies) (hf : (f w.r.t).isFinished = w.r.t.isFinished) :
      w.r.SameWork (w.setTallies f).r := ⟨⟨rfl, rfl, rfl⟩, rfl, hf⟩
  cases op with
  | wkEnd => exact .finish h
  | invalid n => exact absurd rfl (hknown n)
  | send u => exact .send u .send (.inl ⟨rfl, rfl⟩) h
  | isend u => exact .send u .isend (.inr ⟨rfl, rfl⟩) h
  | recv u =>
    obtain ⟨e, he, hw'⟩ := map_eq_ok h
    exact .recv u .recv (.inl ⟨rfl, rfl⟩) _ e (hcount _ rfl) rfl he hw'
  | irecv u =>
    obtain ⟨e, he, hw'⟩ := map_eq_ok h
    exact .recv u .irecv (.inr ⟨rfl, rfl⟩) _ e (hcount _ rfl) rfl he hw'
  | wait reqId =>
    obtain ⟨e, he, hw'⟩ := map_eq_ok h
    obtain ⟨hq, hmoves⟩ := moves_codesExecMpiWait he
    exact .wait _ e (hcount _ rfl) rfl hq hmoves hw'
  | waitall reqIds =>
    unfold execOp at h
    dsimp only at h
    obtain ⟨p, b, c2, hp⟩ := sampleWaits_frame c
      (w.setTallies fun t => { t with numWaitall := t.numWaitall + 1 })
    have hsame : w.r.SameWork (sampleWaits c (w.setTallies fun t =>
        { t with numWaitall := t.numWaitall + 1 })).r := by
      rw [hp]
      exact ⟨⟨rfl, rfl, rfl⟩, rfl, rfl⟩
    have houts : (sampleWaits c (w.setTallies fun t =>
        { t with numWaitall := t.numWaitall + 1 })).outs = w.outs := by
      rw [hp]
      rfl
    generalize sampleWaits c _ = w₁ at h hsame houts
    obtain ⟨e, he, hw'⟩ := map_eq_ok h
    obtain ⟨hq, hmoves⟩ := moves_codesExecMpiWaitAll (by rw [← hwait, ← hsame.s]; rfl) he
    exact .wait w₁ e hsame houts hq hmoves hw'
  | delay nsecs =>
    unfold execOp at h
    dsimp only at h
    split_ifs at h
    · obtain rfl := Except.ok.inj h
      exact .next _ (.inl rfl) ⟨⟨rfl, rfl, rfl⟩, rfl, rfl⟩ rfl
    · obtain rfl := Except.ok.inj h
      exact .next _ (.inr ⟨_, rfl⟩) ⟨⟨rfl, rfl, rfl⟩, rfl, rfl⟩ rfl
  | mark tag =>
    obtain rfl := Except.ok.inj h
    unfold execMark
    rw [if_neg (by simpa [Work.setRc] using hdirector)]
    exact .next _ (.inl rfl) ⟨⟨rfl, rfl, rfl⟩, rfl, rfl⟩ rfl
  | allreduce =>
    obtain rfl := Except.ok.inj h
    obtain ⟨hsame, hsent⟩ := execAllreduce_ok c w
    exact .next _ (.inl rfl) hsame hsent
  | waitsome | waitany | reduce | bcast | allgather | allgatherv | alltoall | alltoallv | col =>
    obtain rfl := Except.ok.inj h
    exact .next _ (.inl rfl) ⟨⟨rfl, rfl, rfl⟩, rfl, rfl⟩ rfl

end Sends

end CodesSim.Replay
