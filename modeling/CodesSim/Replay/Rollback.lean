import CodesSim.Replay.SingleToken
import CodesSim.Replay.Undo

/-!
# Rollback of the queues and the waits

What the reverse handlers give back of the queues and the waits.  Entries are taken out of the
middle of lists and go back there, the requests of a wait all at once (`putBack_clearCompleted`).

Two undos depend on a wait that was pending before: the reverse of a WAITALL clears the wait, and
the end of a wait saves its times where an IRECV has saved that of its receive.  `event_undone_iff`
says that everything else is undone.  As long as each rank has a single token neither can happen
(`Jobs.run_event_undone`), and with two it does (`Jobs.wait_lost`).
-/

namespace CodesSim.Replay

open CodesMapping Outcome

/-! ### Completed requests -/

/-- Requests go back to their places, the one that was taken out last first: at its former index,
less the requests that were taken out before it. -/
def putBack : List (UInt32 × ℕ) → List UInt32 → List UInt32
  | [], l => l
  | x :: xs, l => putBack xs (qlistAddAtIndex x.1 l (x.2 - xs.length))

theorem qlistAddAtIndex_append {α : Type*} (x : α) (l l' : List α) :
    qlistAddAtIndex x (l ++ l') l.length = l ++ x :: l' := by
  have hindex : ((l.length : ℤ) % ((l ++ l').length + 1)).toNat = l.length := by
    rw [List.length_append, Int.emod_eq_of_lt (by omega) (by omega), Int.toNat_natCast]
  rw [qlistAddAtIndex, hindex]
  clear hindex
  induction l with
  | nil => rfl
  | cons y l ih => simpa using ih

theorem putBack_clearCompleted (reqs : List UInt32) (p l : List UInt32)
    (taken : List (UInt32 × ℕ)) {index : ℕ} (hindex : index = p.length + taken.length) :
    putBack (clearCompleted reqs index l taken).2 (p ++ (clearCompleted reqs index l taken).1) =
      putBack taken (p ++ l) := by
  induction l generalizing p taken index with
  | nil => rfl
  | cons r rs ih =>
    unfold clearCompleted
    split_ifs
    · rw [ih p ((r, index) :: taken) (by simp [hindex, add_assoc]), putBack]
      have hplace : ((index : ℕ) : ℤ) - taken.length = p.length := by omega
      rw [hplace, qlistAddAtIndex_append]
    · have hplace : index + 1 = (p ++ [r]).length + taken.length := by
        rw [List.length_append, List.length_singleton]
        omega
      simpa using ih (p ++ [r]) taken hplace

variable {s : NwState}

/-- **`add_completed_reqs` undoes `clear_completed_reqs`.** -/
theorem addCompletedReqs_ok {taken rest : List (UInt32 × ℕ)}
    (h : s.matchedReqs = taken ++ rest) : addCompletedReqs s taken.length =
      .ok { s with matchedReqs := rest, completedReqs := putBack taken s.completedReqs } := by
  have hloop (n i : ℕ) (hn : i + taken.length = n) :
      (List.range' i taken.length).foldlM (addCompletedReq n) s =
        .ok { s with matchedReqs := rest, completedReqs := putBack taken s.completedReqs } := by
    induction taken generalizing s i with
    | nil =>
      rw [List.nil_append] at h
      rw [← h]
      rfl
    | cons x xs ih =>
      rw [List.length_cons] at hn
      rw [List.length_cons, List.range'_succ, List.foldlM_cons, addCompletedReq, h]
      have hplace : (x.2 : ℤ) - n + i + 1 = x.2 - xs.length := by omega
      rw [List.cons_append]
      dsimp only
      rw [hplace]
      exact ih (s := { s with
          matchedReqs := xs ++ rest
          completedReqs := qlistAddAtIndex x.1 s.completedReqs (x.2 - xs.length) })
        rfl (i + 1) (by omega)
  have hall := hloop taken.length 0 (Nat.zero_add _)
  rwa [← List.range_eq_range'] at hall

theorem clearCompleted_filter (reqs : List UInt32) (index : ℕ) (l : List UInt32)
    (taken : List (UInt32 × ℕ)) :
    (clearCompleted reqs index l taken).1 = l.filter (· ∉ reqs) ∧
      (clearCompleted reqs index l taken).2.map Prod.fst =
        (l.filter (· ∈ reqs)).reverse ++ taken.map Prod.fst := by
  induction l generalizing index taken with
  | nil => exact ⟨rfl, rfl⟩
  | cons r rs ih =>
    unfold clearCompleted
    split_ifs with hr
    · obtain ⟨hstay, htaken⟩ := ih (index + 1) ((r, index) :: taken)
      simp [hstay, htaken, hr]
    · obtain ⟨hstay, htaken⟩ := ih (index + 1) taken
      simp [hstay, htaken, hr]

/-- `clear_completed_reqs`: the rank, and the number of requests that were taken out. -/
def clearCompletedReqs (s : NwState) (reqs : List UInt32) : NwState × ℕ :=
  let r := clearCompleted reqs 0 s.completedReqs []
  ({ s with completedReqs := r.1, matchedReqs := r.2 ++ s.matchedReqs }, r.2.length)

/-- **Completed requests go and come back.**  `clear_completed_reqs` takes out exactly the requests
that are waited for, the others stay in their order, and `add_completed_reqs` restores the rank. -/
theorem completedReqs_restored (s : NwState) (reqs : List UInt32) :
    (clearCompletedReqs s reqs).1.completedReqs = s.completedReqs.filter (· ∉ reqs) ∧
      (clearCompletedReqs s reqs).1.matchedReqs.map Prod.fst =
        (s.completedReqs.filter (· ∈ reqs)).reverse ++ s.matchedReqs.map Prod.fst ∧
      addCompletedReqs (clearCompletedReqs s reqs).1 (clearCompletedReqs s reqs).2 = .ok s := by
  obtain ⟨hstay, htaken⟩ := clearCompleted_filter reqs 0 s.completedReqs []
  rw [List.map_nil, List.append_nil] at htaken
  refine ⟨hstay, ?_, ?_⟩
  · rw [clearCompletedReqs, List.map_append, htaken]
  · refine (addCompletedReqs_ok (by exact rfl)).trans ?_
    have hback := putBack_clearCompleted reqs [] s.completedReqs [] rfl
    exact congrArg (fun l => (.ok { s with completedReqs := l } : Except String NwState)) hback

/-! ### Waits -/

/-- What the waits of a rank work on. -/
structure Waits where
  completedReqs : List UInt32
  waitOp : Option PendingWaits
  waitTime : STime
  sampleWaitTime : STime
  processedWaitOp : List PendingWaits
  matchedReqs : List (UInt32 × ℕ)

/-- The part of a rank that its waits work on. -/
def NwState.waits (s : NwState) : Waits :=
  ⟨s.completedReqs, s.waitOp, s.waitTime, s.sample.waitTime, s.processedWaitOp, s.matchedReqs⟩

/-- A rank with other waits. -/
def NwState.withWaits (s : NwState) (x : Waits) : NwState :=
  { s with
    completedReqs := x.completedReqs, waitOp := x.waitOp, waitTime := x.waitTime
    processedWaitOp := x.processedWaitOp, matchedReqs := x.matchedReqs }.setSample fun y =>
      { y with waitTime := x.sampleWaitTime }

theorem withWaits_of_eq {x : Waits} (h : s.waits = x) : s.withWaits x = s := by
  rw [← h]
  rfl

/-- A wait that counts `n` more of its requests. -/
def PendingWaits.count (w : PendingWaits) (n : ℤ) : PendingWaits :=
  { w with numCompleted := w.numCompleted + n }

theorem PendingWaits.count_zero (w : PendingWaits) : w.count 0 = w := by
  rw [PendingWaits.count, add_zero]

/-- A completed request ends the wait. -/
def PendingWaits.endedBy (w : PendingWaits) (req : UInt32) : Bool :=
  if w.opType = .wait ∧ w.reqIds.head? = some req then true
  else if w.opType = .waitall ∨ w.opType = .waitany ∨ w.opType = .waitsome then
    (countCompleted req w.reqIds.length w.numCompleted 0 false w.reqIds).2.2
  else false

/-- A completed request ends the wait of a rank. -/
def NwState.waitEnds (s : NwState) (req : UInt32) : Bool := s.waitOp.any fun w => w.endedBy req

theorem countCompleted_ok (req : UInt32) (count n here : ℤ) (done : Bool) (reqs : List UInt32) :
    ∃ k ≥ 0, (countCompleted req count n here done reqs).1 = n + k ∧
      (countCompleted req count n here done reqs).2.1 = here + k := by
  induction reqs generalizing n here done with
  | nil => exact ⟨0, le_rfl, (add_zero n).symm, (add_zero here).symm⟩
  | cons r rs ih =>
    unfold countCompleted
    split_ifs
    · obtain ⟨k, hk, hn, hhere⟩ := ih (n + 1) (here + 1) (done || decide (n + 1 ≥ count))
      refine ⟨1 + k, by omega, ?_, ?_⟩
      · rw [hn, add_assoc]
      · rw [hhere, add_assoc]
    · exact ih n here done

theorem notifyPostedWait_ok (e : Ev) (req : UInt32) : ∃ k ≥ 0,
    (notifyPostedWait e req).1.s = { e.s with waitOp := e.s.waitOp.map (·.count k) } ∧
      (notifyPostedWait e req).1.m = { e.m with waitCompleted := k } ∧
      (notifyPostedWait e req).1.bf = e.bf ∧
      (notifyPostedWait e req).2 = e.s.waitEnds req ∧
      (e.s.waitOp = none → k = 0) := by
  have hsame : e.s = { e.s with waitOp := e.s.waitOp.map (·.count 0) } := by
    have hid : (fun w : PendingWaits => w.count 0) = id := funext PendingWaits.count_zero
    rw [hid, Option.map_id, id]
  unfold notifyPostedWait
  dsimp only
  split
  · rename_i hw
    change e.s.waitOp = none at hw
    exact ⟨0, le_rfl, hsame, rfl, rfl, by rw [NwState.waitEnds, hw]; rfl, fun _ => rfl⟩
  · rename_i w hw
    change e.s.waitOp = some w at hw
    have hended : e.s.waitEnds req = w.endedBy req := by rw [NwState.waitEnds, hw]; rfl
    rw [hended, PendingWaits.endedBy]
    split_ifs
    · exact ⟨0, le_rfl, hsame, rfl, rfl, rfl, fun _ => rfl⟩
    · obtain ⟨k, hk, hn, hhere⟩ :=
        countCompleted_ok req w.reqIds.length w.numCompleted 0 false w.reqIds
      rw [zero_add] at hhere
      refine ⟨k, hk, ?_, ?_, rfl, rfl, fun hnone => ?_⟩
      · simp only [Ev.setMsg, Ev.setState, hw, Option.map_some, PendingWaits.count, hn]
      · simp only [Ev.setMsg, Ev.setState, hhere]
      · rw [hw] at hnone
        cases hnone
    · exact ⟨0, le_rfl, hsame, rfl, rfl, rfl, fun _ => rfl⟩

/-- A state, a message and bits that hold what the reverse of a completed request reads. -/
structure Ev.Holds (e : Ev) (s : NwState) (m : NwMsg) (bf : NwBf) : Prop where
  waits : s.waits = e.s.waits
  numMatched : m.numMatched = e.m.numMatched
  waitCompleted : m.waitCompleted = e.m.waitCompleted
  w0 : m.rc.w0 = e.m.rc.w0
  w1 : m.rc.w1 = e.m.rc.w1
  c30 : bf.c30 = e.bf.c30
  c31 : bf.c31 = e.bf.c31

variable {m : NwMsg}

theorem uncount_ok {o : Option PendingWaits} {k : ℤ} (hk : k ≥ 0)
    (hnone : o = none → k = 0) (hs : s.waitOp = o.map (·.count k)) (hm : m.waitCompleted = k) :
    (if m.waitCompleted > 0 then
      match s.waitOp with
      | none => .error "s->wait_op is NULL"
      | some w =>
        .ok { s with waitOp := some { w with numCompleted := w.numCompleted - m.waitCompleted } }
    else .ok s : Except String NwState) = .ok { s with waitOp := o } := by
  rw [hm]
  split_ifs with hpos
  · cases o with
    | none => exact absurd (hnone rfl) (by omega)
    | some w =>
      rw [hs, Option.map_some]
      simp [PendingWaits.count]
  · obtain rfl : k = 0 := by omega
    have hid : (fun w : PendingWaits => w.count 0) = id := funext PendingWaits.count_zero
    rw [hid, Option.map_id, id] at hs
    rw [← hs]

variable {now : STime}

variable {req : UInt32}

/-- **A completed request is undone.** -/
theorem updateCompletedQueue_undone {e : Ev}
    {bf : NwBf} (h : (updateCompletedQueue now e req).Holds s m bf) :
    updateCompletedQueueRc s m bf = .ok (s.withWaits e.s.waits) := by
  unfold updateCompletedQueue at h
  dsimp only at h
  obtain ⟨k, hk, hs₁, hm₁, hbf₁, hdone, hnone⟩ := notifyPostedWait_ok ((e.setBf fun b =>
    { b with c30 := false, c31 := false }).setMsg fun m => { m with numMatched := 0 }) req
  generalize notifyPostedWait _ req = n at h hs₁ hm₁ hbf₁
  obtain ⟨e₁, done⟩ := n
  dsimp only at h hs₁ hm₁ hbf₁
  change e₁.s = { e.s with waitOp := e.s.waitOp.map (·.count k) } at hs₁
  change e.s.waitOp = none → k = 0 at hnone
  have hbits : e₁.bf.c30 = false := by rw [hbf₁]; rfl
  have hcompleted : m.waitCompleted = e₁.m.waitCompleted → m.waitCompleted = k := fun hm => by
    rw [hm, hm₁]
  unfold updateCompletedQueueRc
  split at h
  · -- the wait was over: it comes back, and so do its requests
    rename_i w hw
    rw [hs₁] at hw
    have hx : s.waits = {
        completedReqs := (clearCompleted w.reqIds 0 e.s.completedReqs []).1
        waitOp := none
        waitTime := e.s.waitTime + (now - w.startTime)
        sampleWaitTime := e.s.sample.waitTime + (now - w.startTime)
        processedWaitOp := w :: e.s.processedWaitOp
        matchedReqs := (clearCompleted w.reqIds 0 e.s.completedReqs []).2 ++ e.s.matchedReqs } := by
      rw [h.waits]
      simp only [NwState.waits, finishWait, codesIssueNextEvent, Ev.send, Ev.setState,
        Ev.setMsg, Ev.setBf, NwState.setSample, hs₁]
    have hundo : undoCompleted s m bf = .ok (s.withWaits { e.s.waits with waitOp := some w }) := by
      have hstack : s.processedWaitOp = w :: e.s.processedWaitOp :=
        congrArg Waits.processedWaitOp hx
      have h30 : ¬bf.c30 = true := by
        rw [h.c30]
        exact Bool.eq_false_iff.1 hbits
      have h31 : bf.c31 = true := h.c31
      have hnum : m.numMatched = (clearCompleted w.reqIds 0 e.s.completedReqs []).2.length := by
        rw [h.numMatched, ← show e₁.s.completedReqs = e.s.completedReqs by rw [hs₁]]
        rfl
      rw [undoCompleted, if_neg h30, if_pos h31, hstack]
      dsimp only
      rw [hnum]
      have hw0 : m.rc.w0 = e.s.waitTime := by
        rw [h.w0, ← show e₁.s.waitTime = e.s.waitTime by rw [hs₁]]
        rfl
      have hw1 : m.rc.w1 = e.s.sample.waitTime := by
        rw [h.w1, ← show e₁.s.sample = e.s.sample by rw [hs₁]]
        rfl
      have hreqs : putBack (clearCompleted w.reqIds 0 e.s.completedReqs []).2 s.completedReqs =
          e.s.completedReqs := by
        rw [show s.completedReqs = _ from congrArg Waits.completedReqs hx]
        exact putBack_clearCompleted w.reqIds [] e.s.completedReqs [] rfl
      rw [hw0, hw1]
      refine (addCompletedReqs_ok (by exact congrArg Waits.matchedReqs hx)).trans ?_
      change Except.ok (s.withWaits { e.s.waits with
        waitOp := some w
        completedReqs := putBack (clearCompleted w.reqIds 0 e.s.completedReqs []).2
          s.completedReqs }) = _
      rw [hreqs]
      rfl
    rw [hundo]
    exact (uncount_ok hk hnone hw.symm (hcompleted h.waitCompleted)).trans rfl
  · -- the request was kept, and is the first
    have hx : s.waits = { e.s.waits with
        completedReqs := req :: e.s.completedReqs, waitOp := e.s.waitOp.map (·.count k) } := by
      rw [h.waits]
      simp only [NwState.waits, Ev.setState, Ev.setBf, hs₁]
    have hundo : undoCompleted s m bf = .ok (s.withWaits { e.s.waits with
        waitOp := e.s.waitOp.map (·.count k) }) := by
      have hreqs : s.completedReqs = req :: e.s.completedReqs := congrArg Waits.completedReqs hx
      have h30 : bf.c30 = true := h.c30
      rw [undoCompleted, if_pos h30, hreqs]
      rw [← withWaits_of_eq hx]
      rfl
    rw [hundo]
    exact (uncount_ok hk hnone rfl (hcompleted h.waitCompleted)).trans rfl

/-- What a completed request leaves alone: all but the waits, and of the saved values those that it
does not need itself. -/
structure Ev.Completes (e e' : Ev) (req : UInt32) : Prop where
  s : ∃ x, e'.s = e.s.withWaits x
  c8 : e'.bf.c8 = e.bf.c8
  c9 : e'.bf.c9 = e.bf.c9
  c12 : e'.bf.c12 = e.bf.c12
  c29 : e'.bf.c29 = e.bf.c29
  numBytes : e'.m.numBytes = e.m.numBytes
  simStartTime : e'.m.simStartTime = e.m.simStartTime
  w1 : e'.m.rc.w1 = if e.s.waitEnds req then e.s.sample.waitTime else e.m.rc.w1
  w2 : e'.m.rc.w2 = e.m.rc.w2
  w3 : e'.m.rc.w3 = e.m.rc.w3
  w4 : e'.m.rc.w4 = e.m.rc.w4

theorem updateCompletedQueue_completes (now : STime) (e : Ev) (req : UInt32) :
    e.Completes (updateCompletedQueue now e req) req := by
  obtain ⟨k, -, hs₁, hm₁, hbf₁, hdone, -⟩ := notifyPostedWait_ok ((e.setBf fun b =>
    { b with c30 := false, c31 := false }).setMsg fun m => { m with numMatched := 0 }) req
  change _ = e.s.waitEnds req at hdone
  unfold updateCompletedQueue
  dsimp only
  generalize notifyPostedWait _ req = n at hs₁ hm₁ hbf₁ hdone
  obtain ⟨⟨s₁, m₁, bf₁, outs₁⟩, done⟩ := n
  dsimp only at hs₁ hm₁ hbf₁ hdone
  subst hs₁ hm₁ hbf₁
  cases done with
  | false =>
    refine ⟨⟨{ e.s.waits with
      completedReqs := req :: e.s.completedReqs, waitOp := e.s.waitOp.map (·.count k) }, rfl⟩,
      rfl, rfl, rfl, rfl, rfl, rfl, ?_, rfl, rfl, rfl⟩
    rw [← hdone]
    rfl
  | true =>
    obtain ⟨w, hw⟩ : ∃ w, e.s.waitOp = some w := by
      cases hw : e.s.waitOp with
      | none => simp [NwState.waitEnds, hw] at hdone
      | some w => exact ⟨w, rfl⟩
    split
    · rename_i w' _ _
      refine ⟨⟨(finishWait now _ w').s.waits, rfl⟩, rfl, rfl, rfl, rfl, rfl, rfl, ?_, rfl, rfl, rfl⟩
      rw [← hdone]
      rfl
    · rename_i hcases
      exact absurd (congrArg (Option.map (·.count k)) hw) (hcases (w.count k) rfl)

/-! ### Messages that arrive -/
variable {reqs : List UInt32}


section Handlers

variable {c : ReplayCtx} {e e' : Ev} {qi q : QMsg}

theorem trackMessageSize_off (htrack : c.enableMsgTracking = false) (isSend : Bool) :
    trackMessageSize c e q isSend = e := by
  rw [trackMessageSize, if_neg (by simp [htrack])]

theorem setMsg_frame (e : Ev) (f : NwMsg → NwMsg) :
    (e.setMsg f).s = e.s ∧ (e.setMsg f).bf = e.bf := ⟨rfl, rfl⟩

theorem addRecvTime_frame {e₁ : Ev} (hs : e₁.s = e.s) (time : STime) :
    (addRecvTime (saveRecvTimeNext e₁) time).s = (addRecvTime e time).s ∧
      (addRecvTime (saveRecvTimeNext e₁) time).m.rc.w1 = e.s.recvTime ∧
      (addRecvTime (saveRecvTimeNext e₁) time).m.rc.w2 = e.s.sample.recvTime ∧
      (addRecvTime (saveRecvTimeNext e₁) time).bf = e₁.bf := by
  rw [← hs]
  refine ⟨?_, rfl, rfl, rfl⟩
  simp only [addRecvTime, saveRecvTimeNext, Ev.setState, Ev.setMsg, hs]

theorem setBf_frame (e : Ev) (f : NwBf → NwBf) :
    (e.setBf f).s = e.s ∧ (e.setBf f).m = e.m := ⟨rfl, rfl⟩

theorem sendAckBack_frame {req : ℤ} (h : sendAckBack c e q req = .ok e') :
    e'.s = e.s ∧ e'.m = e.m ∧ e'.bf = e.bf := by
  unfold sendAckBack at h
  split at h
  · cases h
  · split at h
    · cases h
    · obtain rfl := Except.ok.inj h
      exact ⟨rfl, rfl, rfl⟩

theorem sendCallback_frame (h : sendCallback c e = .ok e') :
    e'.s = e.s ∧ e'.m = e.m ∧ ∃ b, e'.bf = { e.bf with c1 := b } := by
  unfold sendCallback at h
  split_ifs at h
  · split at h
    · cases h
    · obtain rfl := Except.ok.inj h
      exact ⟨rfl, rfl, true, rfl⟩
  · obtain rfl := Except.ok.inj h
    exact ⟨rfl, rfl, e.bf.c1, rfl⟩

theorem receiveMatched_frame (htrack : c.enableMsgTracking = false)
    (h : receiveMatched c e qi q = .ok e') :
    (e'.s = e.s ∧ e'.m = (e.m.setRc fun rc => { rc with w4 := qi.numBytes }) ∧
      e'.bf.c12 = e.bf.c12 ∧ e'.bf.c9 = e.bf.c9) ∨
    (e'.s = (addRecvTime e (c.now - e.m.simStartTime)).s ∧
      e'.m = (e.m.setRc fun rc =>
        { rc with w2 := e.s.recvTime, w3 := e.s.sample.recvTime, w4 := qi.numBytes }) ∧
      e'.bf.c12 = true ∧ e'.bf.c9 = e.bf.c9) ∨
    ∃ e₁ : Ev, e₁.s = (addRecvTime e (c.now - e.m.simStartTime)).s ∧
      e₁.m = (e.m.setRc fun rc =>
        { rc with w2 := e.s.recvTime, w3 := e.s.sample.recvTime, w4 := qi.numBytes }) ∧
      e₁.bf.c12 = true ∧ e₁.bf.c9 = true ∧ e' = updateCompletedQueue c.now e₁ qi.reqId := by
  unfold receiveMatched at h
  dsimp only at h
  rw [trackMessageSize_off htrack] at h
  split_ifs at h with hlong hirecv hrecv
  · obtain ⟨hs, hm, hbf⟩ := sendAckBack_frame h
    exact .inl ⟨hs, hm, by rw [hbf]; rfl, by rw [hbf]; rfl⟩
  · obtain rfl := Except.ok.inj h
    refine .inr (.inr ⟨_, ?_, ?_, ?_, ?_, rfl⟩) <;> rfl
  · obtain rfl := Except.ok.inj h
    exact .inr (.inl ⟨rfl, rfl, rfl, rfl⟩)
  · obtain rfl := Except.ok.inj h
    exact .inr (.inl ⟨rfl, rfl, rfl, rfl⟩)

/-- A receive that was taken out of its queue goes back with its own size. -/
theorem insertIdx_eraseIdx_of_match {p : QMsg → Bool} {l : List QMsg} {index : ℕ}
    (h : firstMatch p 0 l = some (index, qi)) : (l.eraseIdx index).insertIdx index qi = l := by
  obtain ⟨hlt, hget⟩ := List.getElem?_eq_some_iff.1 (firstMatch_getElem? h).2
  rw [← hget]
  exact List.insertIdx_eraseIdx_getElem hlt

/-- **An arriving message is undone.** -/
theorem updateArrivalQueue_undone (htrack : c.enableMsgTracking = false) (h12 : e.bf.c12 = false)
    (h9 : e.bf.c9 = false) (h : updateArrivalQueue c e = .ok e') :
    updateArrivalQueueRc e'.s e'.m e'.bf = .ok e.s := by
  unfold updateArrivalQueue at h
  split_ifs at h
  split at h
  · cases h
  · rename_i e₁ hcb
    obtain ⟨hs₁, hm₁, b, hbf₁⟩ := sendCallback_frame hcb
    dsimp only at h
    unfold rmMatchingRcv at h
    split at h
    · cases h
    · rename_i e₂ k hrm
      split at hrm
      · obtain ⟨rfl, rfl⟩ := Prod.mk.inj (Except.ok.inj hrm)
        rw [if_pos (by omega)] at h
        obtain rfl := Except.ok.inj h
        unfold updateArrivalQueueRc
        simp only [Ev.setState, Ev.setMsg, hs₁, hm₁, countBytes, saveRecvTimeSend,
          NwState.setSample, NwMsg.setRc, UInt64.add_sub_cancel, List.dropLast_concat]
        rw [if_neg (by decide)]
        split
        · rename_i hnil
          simp at hnil
        · rfl
      · rename_i index qi hsome
        split at hrm
        · cases hrm
        · rename_i e₃ hmatched
          obtain ⟨rfl, rfl⟩ := Prod.mk.inj (Except.ok.inj hrm)
          rw [if_neg (by omega)] at h
          obtain rfl := Except.ok.inj h
          have hfound : (if (index : ℤ) < 0 then -1 else (index : ℤ)) = index := if_neg (by omega)
          have hback : (e.s.pendingRecvsQueue.eraseIdx index).insertIdx index qi =
              e.s.pendingRecvsQueue := by
            rw [hs₁] at hsome
            exact insertIdx_eraseIdx_of_match hsome
          have hdone := congrArg
            (fun l => (.ok { e.s with pendingRecvsQueue := l } : Except String NwState)) hback
          unfold updateArrivalQueueRc
          simp only [Ev.setState, Ev.setMsg, hfound, popProcessed]
          rw [if_pos (by omega)]
          obtain ⟨hs, hm, hb12, hb9⟩ | ⟨hs, hm, hb12, hb9⟩ | ⟨e₄, hs, hm, hb12, hb9, rfl⟩ :=
            receiveMatched_frame htrack hmatched
          · -- a long message
            have hc12 : e₃.bf.c12 = false := by rw [hb12, hbf₁]; exact h12
            have hc9 : e₃.bf.c9 = false := by rw [hb9, hbf₁]; exact h9
            simp only [hc12, hc9, Bool.false_eq_true, if_false, hs, hm, hs₁, hm₁, countBytes,
              saveRecvTimeSend, Ev.setState, Ev.setMsg, NwState.setSample, NwMsg.setRc,
              UInt64.add_sub_cancel, Int.toNat_natCast]
            exact hdone
          · -- a short message for a blocking receive
            have hc9 : e₃.bf.c9 = false := by rw [hb9, hbf₁]; exact h9
            simp only [hb12, hc9, Bool.false_eq_true, if_false, if_true, hs, hm, hs₁, hm₁,
              countBytes,
              saveRecvTimeSend, Ev.setState, Ev.setMsg, NwState.setSample, NwMsg.setRc, addRecvTime,
              UInt64.add_sub_cancel, Int.toNat_natCast]
            exact hdone
          · -- a short message completes a request
            have hcompletes := updateCompletedQueue_completes c.now e₄ qi.reqId
            have hundo {s : NwState} {m : NwMsg} {bf : NwBf}
                (h : (updateCompletedQueue c.now e₄ qi.reqId).Holds s m bf) :=
              updateCompletedQueue_undone h
            generalize updateCompletedQueue c.now e₄ qi.reqId = e₃ at hcompletes hundo ⊢
            have hc12 : e₃.bf.c12 = true := hcompletes.c12.trans hb12
            have hc9 : e₃.bf.c9 = true := hcompletes.c9.trans hb9
            simp only [hc12, hc9, if_true, NwState.setSample]
            refine (hundo (by exact ⟨rfl, rfl, rfl, rfl, rfl, rfl, rfl⟩)).trans ?_
            obtain ⟨x, hx⟩ := hcompletes.s
            simp only [hx, hcompletes.numBytes, hcompletes.w2, hcompletes.w3, hcompletes.w4,
              NwState.withWaits, NwState.waits, hs, hm, hs₁, hm₁, countBytes,
              saveRecvTimeSend, Ev.setState, Ev.setMsg, NwState.setSample, NwMsg.setRc, addRecvTime,
              UInt64.add_sub_cancel, Int.toNat_natCast]
            exact hdone

/-! ### Receives that are posted -/

theorem completeRecv_frame (h : (if q.opType = .irecv then
        .ok (updateCompletedQueue now (e.setBf fun b => { b with c29 := true }) q.reqId)
      else if q.opType = .recv then
        .ok (codesIssueNextEvent (e.setBf fun b => { b with c6 := true }))
      else .ok e : Except String Ev) = .ok e') :
    ¬q.opType = .irecv ∧ e'.s = e.s ∧ e'.m = e.m ∧ e'.bf.c29 = e.bf.c29 ∨
      q.opType = .irecv ∧
        e' = updateCompletedQueue now (e.setBf fun b => { b with c29 := true }) q.reqId := by
  split_ifs at h with hirecv hrecv
  · exact .inr ⟨hirecv, (Except.ok.inj h).symm⟩
  · obtain rfl := Except.ok.inj h
    exact .inl ⟨hirecv, rfl, rfl, rfl⟩
  · obtain rfl := Except.ok.inj h
    exact .inl ⟨hirecv, rfl, rfl, rfl⟩

/-- A receive that a long message answers. -/
theorem askForData_frame {e₀ : Ev} {req : ℤ} {waited : STime} (hs₀ : e₀.s = e.s)
    (hbf₀ : e₀.bf = e.bf)
    (h : (match sendAckBack c (e₀.setBf fun b => { b with c10 := true }) qi req with
      | .error text => .error text
      | .ok e => .ok (addRecvTime (saveRecvTimeNext e) waited) : Except String Ev) = .ok e') :
    e'.s = (addRecvTime e waited).s ∧ e'.m.rc.w1 = e.s.recvTime ∧
      e'.m.rc.w2 = e.s.sample.recvTime ∧ e'.bf.c29 = e.bf.c29 := by
  split at h
  · cases h
  · rename_i e₂ hsent
    have hs₂ : e₂.s = e.s := by rw [(sendAckBack_frame hsent).1, (setBf_frame e₀ _).1, hs₀]
    have h29 : e₂.bf.c29 = e.bf.c29 := by
      rw [(sendAckBack_frame hsent).2.2, ← hbf₀]
      rfl
    obtain ⟨hs₁, hw1, hw2, hbf⟩ := addRecvTime_frame hs₂ waited
    rw [Except.ok.inj h] at hs₁ hw1 hw2 hbf
    exact ⟨hs₁, hw1, hw2, by rw [hbf, h29]⟩

theorem messageMatched_frame (htrack : c.enableMsgTracking = false)
    (h : messageMatched c e qi q = .ok e') : ∃ e₁ : Ev,
      e₁.s = (addRecvTime e (c.now - q.reqInitTime)).s ∧
      e₁.m.rc.w1 = e.s.recvTime ∧ e₁.m.rc.w2 = e.s.sample.recvTime ∧
      (¬(q.opType = .irecv ∧ qi.numBytes < c.eagerThreshold) ∧
          e'.s = e₁.s ∧ e'.m = e₁.m ∧ e'.bf.c29 = e.bf.c29 ∨
        (q.opType = .irecv ∧ qi.numBytes < c.eagerThreshold) ∧ e₁.bf.c29 = true ∧
          e' = updateCompletedQueue c.now e₁ q.reqId) := by
  unfold messageMatched at h
  dsimp only at h
  rw [trackMessageSize_off htrack] at h
  obtain ⟨hs₀, hbf₀⟩ := setMsg_frame e fun m => { m with matchedReq := reqInt q.reqId }
  generalize (e.setMsg fun m => { m with matchedReq := reqInt q.reqId }) = e₀ at h hs₀ hbf₀
  generalize c.now - q.reqInitTime = waited at h ⊢
  by_cases hlong : qi.numBytes ≥ c.eagerThreshold
  · rw [if_pos hlong] at h
    obtain ⟨hs, hw1, hw2, h29⟩ := askForData_frame hs₀ hbf₀ h
    exact ⟨e', hs, hw1, hw2,
      .inl ⟨fun hshort => not_le.2 hshort.2 hlong, rfl, rfl, h29⟩⟩
  · rw [if_neg hlong] at h
    obtain ⟨hs₁, hw1, hw2, hbf⟩ := addRecvTime_frame hs₀ waited
    generalize addRecvTime (saveRecvTimeNext e₀) waited = e₁ at h hs₁ hw1 hw2 hbf
    obtain ⟨hirecv, hs, hm, h29⟩ | ⟨hirecv, rfl⟩ := completeRecv_frame h
    · exact ⟨e₁, hs₁, hw1, hw2,
        .inl ⟨fun hshort => hirecv hshort.1, hs, hm, by rw [h29, hbf, hbf₀]⟩⟩
    · exact ⟨e₁.setBf fun b => { b with c29 := true }, hs₁, hw1, hw2,
        .inr ⟨⟨hirecv, not_le.1 hlong⟩, rfl, rfl⟩⟩

/-- A receive finds a short message, and its request ends the wait of the rank. -/
def RecvOp.endsWait (op : RecvOp) (c : ReplayCtx) (s : NwState) : Bool :=
  op.opType = .irecv && s.waitEnds op.reqId &&
    match firstMatch (fun q => fits (op.entry c.now) q) 0 s.arrivalQueue with
    | some (_, q) => q.numBytes < c.eagerThreshold
    | none => false

/-- The receive time that comes back: the end of a wait saves a wait time in its place. -/
def RecvOp.restoredTime (op : RecvOp) (c : ReplayCtx) (s : NwState) : STime :=
  if op.endsWait c s then s.sample.waitTime else s.recvTime

/-- **A posted receive is undone**, up to the receive time. -/
theorem codesExecMpiRecv_undone {op : RecvOp} (htrack : c.enableMsgTracking = false)
    (h29 : e.bf.c29 = false) (h : codesExecMpiRecv c e op = .ok e') :
    codesExecMpiRecvRc e'.s e'.m e'.bf = .ok { e.s with recvTime := op.restoredTime c e.s } := by
  unfold codesExecMpiRecv at h
  dsimp only at h
  -- the next operation of an IRECV changes neither the state nor the message
  have hnext (e₂ : Ev) : ∃ b outs, (if op.opType = .irecv then
      codesIssueNextEvent (e₂.setBf fun b => { b with c6 := true }) else e₂) =
        { e₂ with bf := { e₂.bf with c6 := b }, outs := outs } := by
    split_ifs
    · exact ⟨true, _, rfl⟩
    · exact ⟨e₂.bf.c6, e₂.outs, rfl⟩
  unfold rmMatchingSend at h
  split at h
  · cases h
  · rename_i e₂ k hrm
    obtain ⟨b, outs, hb⟩ := hnext e₂
    rw [hb] at h
    split at hrm
    · rename_i hnone
      change firstMatch _ 0 e.s.arrivalQueue = none at hnone
      obtain ⟨rfl, rfl⟩ := Prod.mk.inj (Except.ok.inj hrm)
      rw [if_pos (by omega)] at h
      obtain rfl := Except.ok.inj h
      have hends : op.endsWait c e.s = false := by
        rw [RecvOp.endsWait, hnone, Bool.and_false]
      rw [RecvOp.restoredTime, hends, if_neg Bool.false_ne_true]
      unfold codesExecMpiRecvRc
      simp only [Ev.setState, Ev.setMsg, saveRecvTimeNext, NwState.setSample, NwMsg.setRc,
        List.dropLast_concat]
      rw [if_neg (by decide)]
      split
      · rename_i hnil
        simp at hnil
      · rfl
    · rename_i index qi hsome
      change firstMatch _ 0 e.s.arrivalQueue = some (index, qi) at hsome
      split at hrm
      · cases hrm
      · rename_i e₃ hmatched
        obtain ⟨rfl, rfl⟩ := Prod.mk.inj (Except.ok.inj hrm)
        rw [if_neg (by omega)] at h
        obtain rfl := Except.ok.inj h
        have hfound : (if (index : ℤ) < 0 then -1 else (index : ℤ)) = index := if_neg (by omega)
        have hback := insertIdx_eraseIdx_of_match hsome
        obtain ⟨e₄, hs, hw1, hw2, hcase⟩ := messageMatched_frame htrack hmatched
        unfold codesExecMpiRecvRc
        simp only [Ev.setState, Ev.setMsg, hfound, popProcessed]
        rw [if_pos (by omega)]
        obtain ⟨hnot, hs₃, hm₃, hc29⟩ | ⟨⟨hirecv, hshort⟩, hc29, rfl⟩ := hcase
        · -- the receive is not completed here
          have hends : op.endsWait c e.s = false := by
            refine Bool.eq_false_iff.2 fun h => hnot ?_
            simp only [RecvOp.endsWait, hsome, Bool.and_eq_true, decide_eq_true_eq] at h
            exact ⟨h.1.1, h.2⟩
          have h29' : e₃.bf.c29 = false := hc29.trans h29
          rw [RecvOp.restoredTime, hends, if_neg Bool.false_ne_true]
          simp only [h29', hs₃, hm₃, hw1, hw2, hs, Bool.false_eq_true, if_false, addRecvTime,
            saveRecvTimeNext, Ev.setState, Ev.setMsg, NwState.setSample, Int.toNat_natCast]
          exact congrArg (fun l => (.ok { e.s with arrivalQueue := l } : Except String NwState))
            hback
        · -- its request is completed, and perhaps the wait of the rank
          have hends : op.endsWait c e.s = e.s.waitEnds op.reqId := by
            have hirecv' : op.opType = .irecv := hirecv
            simp only [RecvOp.endsWait, hsome, hirecv', hshort, decide_true, Bool.and_true,
              Bool.true_and]
          have hcompletes := updateCompletedQueue_completes c.now e₄ (op.entry c.now).reqId
          have hundo {s : NwState} {m : NwMsg} {bf : NwBf}
              (h : (updateCompletedQueue c.now e₄ (op.entry c.now).reqId).Holds s m bf) :=
            updateCompletedQueue_undone h
          generalize updateCompletedQueue c.now e₄ (op.entry c.now).reqId = e₃ at hcompletes hundo ⊢
          have h29' : e₃.bf.c29 = true := hcompletes.c29.trans hc29
          have htime : e₃.m.rc.w1 = op.restoredTime c e.s := by
            rw [hcompletes.w1, hs, hw1, RecvOp.restoredTime, hends]
            rfl
          simp only [h29', if_true, NwState.setSample]
          refine (hundo (by exact ⟨rfl, rfl, rfl, rfl, rfl, rfl, rfl⟩)).trans ?_
          obtain ⟨x, hx⟩ := hcompletes.s
          simp only [hx, htime, hcompletes.w2, hw2, NwState.withWaits, NwState.waits, hs,
            addRecvTime,
            saveRecvTimeNext, Ev.setState, Ev.setMsg, NwState.setSample, Int.toNat_natCast]
          exact congrArg (fun l => (.ok { e.s with
            recvTime := op.restoredTime c e.s, arrivalQueue := l } : Except String NwState)) hback

/-! ### Waits that are posted, and data that come -/

/-- **A wait is undone.** -/
theorem codesExecMpiWait_undone (h1 : e.bf.c1 = false)
    (h : codesExecMpiWait now e req = .ok e') : codesExecMpiWaitRc e'.s e'.m e'.bf = .ok e.s := by
  unfold codesExecMpiWait at h
  split at h
  · cases h
  · rename_i hw
    split at h
    · rename_i index current hsome
      obtain rfl := Except.ok.inj h
      obtain ⟨hlt, hget⟩ := List.getElem?_eq_some_iff.1 (firstMatch_getElem? hsome).2
      have hback : (e.s.completedReqs.eraseIdx index).insertIdx index current =
        e.s.completedReqs := by
        rw [← hget]
        exact List.insertIdx_eraseIdx_getElem hlt
      exact congrArg (fun l => (.ok { e.s with completedReqs := l } : Except String NwState)) hback
    · obtain rfl := Except.ok.inj h
      unfold codesExecMpiWaitRc
      rw [if_neg (by simpa [Ev.setState] using h1)]
      exact congrArg (fun o => (.ok { e.s with waitOp := o } : Except String NwState)) hw.symm

/-- **A wait for several requests is undone**, but for a wait that was pending before. -/
theorem codesExecMpiWaitAll_undone (h : codesExecMpiWaitAll now e reqs = .ok e') :
    codesExecMpiWaitAllRc e'.s e'.m = .ok { e.s with waitOp := none } := by
  unfold codesExecMpiWaitAll at h
  dsimp only at h
  split_ifs at h
  · obtain rfl := Except.ok.inj h
    have hback := putBack_clearCompleted reqs [] e.s.completedReqs [] rfl
    refine (addCompletedReqs_ok (by exact rfl)).trans ?_
    exact congrArg (fun l =>
      (.ok { e.s with waitOp := none, completedReqs := l } : Except String NwState)) hback
  · obtain rfl := Except.ok.inj h
    rfl

theorem codesExecMpiWaitAll_bf (h : codesExecMpiWaitAll now e reqs = .ok e') : e'.bf = e.bf := by
  unfold codesExecMpiWaitAll at h
  dsimp only at h
  split_ifs at h
  · obtain rfl := Except.ok.inj h
    rfl
  · obtain rfl := Except.ok.inj h
    rfl

/-- **The data of a long message are undone.** -/
theorem handleRendArrived_undone (htrack : c.enableMsgTracking = false) (h8 : e.bf.c8 = false)
    (h : handleRendArrived c e = .ok e') :
    (if e'.bf.c8 then updateCompletedQueueRc e'.s e'.m e'.bf else .ok e'.s).map (fun s =>
      { s with recvTime := e'.m.rc.w2 }.setSample fun x => { x with recvTime := e'.m.rc.w3 }) =
        .ok e.s := by
  unfold handleRendArrived at h
  rw [if_neg (by simp [htrack])] at h
  dsimp only at h
  split at h
  · cases h
  · rename_i dest _
    have hs₁ : (e.send (.arrivedCb dest (c.now - e.m.simStartTime))).s = e.s := rfl
    have hbf₁ : (e.send (.arrivedCb dest (c.now - e.m.simStartTime))).bf = e.bf := rfl
    generalize e.send (.arrivedCb dest (c.now - e.m.simStartTime)) = e₁ at h hs₁ hbf₁
    by_cases hreq : e₁.m.matchedReq ≥ 0
    · rw [if_pos hreq] at h
      have hcompletes := updateCompletedQueue_completes c.now
        (e₁.setBf fun b => { b with c8 := true }) (UInt32.ofInt e₁.m.matchedReq)
      have hundo {s : NwState} {m : NwMsg} {bf : NwBf}
          (h : (updateCompletedQueue c.now (e₁.setBf fun b => { b with c8 := true })
            (UInt32.ofInt e₁.m.matchedReq)).Holds s m bf) := updateCompletedQueue_undone h
      generalize updateCompletedQueue c.now (e₁.setBf fun b => { b with c8 := true })
        (UInt32.ofInt e₁.m.matchedReq) = e₂ at h hcompletes hundo
      generalize c.now - e₂.m.simStartTime = time at h
      obtain rfl := Except.ok.inj h
      have hc8 : e₂.bf.c8 = true := hcompletes.c8
      rw [if_pos (by exact hc8), hundo (by exact ⟨rfl, rfl, rfl, rfl, rfl, rfl, rfl⟩)]
      obtain ⟨x, hx⟩ := hcompletes.s
      rw [← hs₁]
      simp only [addRecvTime, saveRecvTimeSend, Ev.setState, Ev.setMsg, NwState.setSample, hx,
        NwState.withWaits, NwState.waits, Except.map, NwMsg.setRc, Ev.setBf]
    · rw [if_neg hreq] at h
      have hs₂ : (codesIssueNextEvent (e₁.setBf fun b => { b with c10 := true })).s = e₁.s := rfl
      have h8' : (codesIssueNextEvent (e₁.setBf fun b => { b with c10 := true })).bf.c8 =
        e₁.bf.c8 := rfl
      generalize codesIssueNextEvent (e₁.setBf fun b => { b with c10 := true }) = e₂ at h hs₂ h8'
      generalize c.now - e₂.m.simStartTime = time at h
      obtain rfl := Except.ok.inj h
      have hc8 : ¬e₂.bf.c8 = true := by
        rw [h8', hbf₁, h8]
        exact Bool.false_ne_true
      rw [if_neg (by exact hc8), ← hs₁, ← hs₂]
      simp only [addRecvTime, saveRecvTimeSend, Ev.setState, Ev.setMsg, NwState.setSample,
        Except.map, NwMsg.setRc]

end Handlers

/-! ### Events -/

section Events

variable {c : RankCtx} {k : Kept} {r : Rank} {w w' : Work} {op : WorkloadOp}

/-- **The end of a send is undone.** -/
theorem handleSendPosted_undone {rendSend : Bool} (h28 : w.obf.c28 = false) :
    nwTestEventHandlerRc c (.sendPosted m rendSend) (handleSendPosted c.toReplayCtx w rendSend) =
      .ok w.r := by
  have hnot : ¬w.obf.c28 = true := Bool.eq_false_iff.1 h28
  unfold nwTestEventHandlerRc handleSendPosted
  dsimp only
  split
  · exact if_neg hnot
  · split
    · -- the request of an ISEND is completed
      have hcompletes := updateCompletedQueue_completes c.now
        (w.setOpBf fun b => { b with c28 := true }).ev w.m.reqId
      have hundo {s : NwState} {m : NwMsg} {bf : NwBf} (h : (updateCompletedQueue c.now
          (w.setOpBf fun b => { b with c28 := true }).ev w.m.reqId).Holds s m bf) :=
        updateCompletedQueue_undone h
      obtain ⟨x, hx⟩ := hcompletes.s
      change (if true = true then (updateCompletedQueueRc _ _ _).map _ else _) = _
      rw [if_pos rfl, hundo (by exact ⟨rfl, rfl, rfl, rfl, rfl, rfl, rfl⟩)]
      refine congrArg (fun s => (.ok { w.r with s := s } : Except String Rank)) ?_
      change (updateCompletedQueue c.now _ _).s.withWaits w.r.s.waits = w.r.s
      exact (congrArg (fun s => s.withWaits w.r.s.waits) hx).trans rfl
    · rfl

theorem execRecv_undone {opType : WkOp} {u : P2p} (htrack : c.enableMsgTracking = false)
    (h29 : w.bf.c29 = false) (h : execRecv c w opType u = .ok w') :
    w'.obf = w.obf ∧ w'.op = w.op ∧
      (codesExecMpiRecvRc w'.r.s w'.m w'.bf).map (fun s => w'.undone s
        { w'.r.t with
          numRecvs := w'.r.t.numRecvs - 1, sampleNumRecvs := w'.r.t.sampleNumRecvs - 1 }) =
        .ok { w.r with s :=
          { w.r.s with recvTime := (u.recvOp opType).restoredTime c.toReplayCtx w.r.s } } := by
  unfold execRecv at h
  obtain ⟨e, he, rfl⟩ := map_eq_ok h
  refine ⟨rfl, rfl, ?_⟩
  have hundo := codesExecMpiRecv_undone (by exact htrack) (by exact h29) he
  have ht : { w.r.t with
      numRecvs := w.r.t.numRecvs + 1 - 1
      sampleNumRecvs := w.r.t.sampleNumRecvs + 1 - 1 } = w.r.t := by
    rw [UInt64.add_sub_cancel, UInt64.add_sub_cancel]
  change (codesExecMpiRecvRc e.s e.m e.bf).map _ = _
  rw [hundo]
  exact congrArg (fun t => (.ok { w.r with
    s := { w.r.s with recvTime := (u.recvOp opType).restoredTime c.toReplayCtx w.r.s }
    t := t } : Except String Rank)) ht

theorem execWait_undone (h1 : w.bf.c1 = false) (h : execOp c w (.wait req) = .ok w') :
    w'.obf = w.obf ∧ w'.op = w.op ∧ undoOp c w' (.wait req) = .ok w.r := by
  obtain ⟨e, he, rfl⟩ := map_eq_ok h
  refine ⟨rfl, rfl, ?_⟩
  have hundo := codesExecMpiWait_undone (by exact h1) he
  have ht : { w.r.t with numWait := w.r.t.numWait + 1 - 1 } = w.r.t := by
    rw [UInt64.add_sub_cancel]
  change (codesExecMpiWaitRc e.s e.m e.bf).map _ = _
  rw [hundo]
  exact congrArg (fun t => (.ok { w.r with t := t } : Except String Rank)) ht

theorem execWaitall_undone (hsampling : c.enableSampling = false)
    (h1 : w.bf.c1 = false) (h : execOp c w (.waitall reqs) = .ok w') :
    w'.obf = w.obf ∧ w'.op = w.op ∧
      undoOp c w' (.waitall reqs) = .ok { w.r with s := { w.r.s with waitOp := none } } := by
  unfold execOp at h
  dsimp only at h
  rw [sampleWaits, if_neg (by simp [hsampling])] at h
  obtain ⟨e, he, rfl⟩ := map_eq_ok h
  refine ⟨rfl, rfl, ?_⟩
  have hundo := codesExecMpiWaitAll_undone he
  have hbit : ¬e.bf.c1 = true := by
    rw [codesExecMpiWaitAll_bf he]
    exact Bool.eq_false_iff.1 h1
  have ht : { w.r.t with numWaitall := w.r.t.numWaitall + 1 - 1 } = w.r.t := by
    rw [UInt64.add_sub_cancel]
  change (codesExecMpiWaitAllRc e.s e.m).map _ = _
  rw [hundo]
  refine (congrArg (fun p => (.ok { w.r with
    s := { w.r.s with waitOp := none }
    t := { w.r.t with numWaitall := w.r.t.numWaitall + 1 - 1 }
    sampling := p } : Except String Rank)) (if_neg hbit)).trans ?_
  exact congrArg (fun t => (.ok { w.r with
    s := { w.r.s with waitOp := none }
    t := t } : Except String Rank)) ht

/-- What the reverse of an operation leaves of the queues and waits. -/
def WorkloadOp.restored (c : ReplayCtx) (s : NwState) : WorkloadOp → NwState
  | .irecv u => { s with recvTime := (u.recvOp .irecv).restoredTime c s }
  | .waitall _ => { s with waitOp := none }
  | _ => s

/-- **An operation on the queues and its reverse.** -/
theorem execQueues_undone (htrack : c.enableMsgTracking = false)
    (hsampling : c.enableSampling = false) (hop : op.usesQueues = true) (h1 : w.bf.c1 = false)
    (h29 : w.bf.c29 = false) (h : execOp c w op = .ok w') : w'.obf = w.obf ∧ w'.op = w.op ∧
      undoOp c w' op = .ok { w.r with s := op.restored c.toReplayCtx w.r.s } := by
  cases op with
  | recv u => exact execRecv_undone htrack h29 h
  | irecv u => exact execRecv_undone htrack h29 h
  | wait req => exact execWait_undone h1 h
  | waitall reqs => exact execWaitall_undone hsampling h1 h
  | _ => cases hop

/-- The operations of a rank go to its director instead. -/
def Rank.surrogate (r : Rank) : Bool := r.iterationSurrogate && r.directorEnabled

theorem surrogate_iff :
    r.surrogate = true ↔ r.iterationSurrogate = true ∧ r.directorEnabled = true :=
  Bool.and_eq_true_iff

/-- The event works on the queues of the rank. -/
def NwEvent.usesQueues : NwEvent → Bool
  | .sendArrived _ | .rendArrived _ | .sendPosted _ _ => true
  | .rendAckArrived _ => false
  | .getNext _ op => op.usesQueues

/-- What the reverse of an event leaves of the queues and waits. -/
def NwEvent.restored (c : ReplayCtx) (r : Rank) : NwEvent → NwState
  | .getNext _ op => if r.surrogate then r.s else op.restored c r.s
  | _ => r.s

theorem execMpiOp_queues (htrack : c.enableMsgTracking = false)
    (hsampling : c.enableSampling = false) (hop : op.usesQueues = true)
    (h : execMpiOp c (Work.start r m) op = .ok w) : execMpiOpRc c w =
      .ok { r with s := if r.surrogate then r.s else op.restored c.toReplayCtx r.s } := by
  have hboundary : op.isBoundary = false := by
    cases op <;> first | rfl | cases hop
  unfold execMpiOp at h
  dsimp only at h
  by_cases hdirector : r.surrogate = true
  · -- the director has the operation
    rw [if_pos ⟨hboundary, surrogate_iff.1 hdirector⟩] at h
    obtain rfl := Except.ok.inj h
    rw [if_pos hdirector]
    exact if_pos (.inr rfl)
  · rw [if_neg fun hd => hdirector (surrogate_iff.2 hd.2)] at h
    obtain ⟨hobf, hw, hundo⟩ :=
    execQueues_undone htrack hsampling hop (by exact rfl) (by exact rfl) h
    have hbits : ¬(w.obf.c14 = true ∨ w.obf.c18 = true) := by
      rw [hobf]
      simp [Work.start, Work.setOpBf]
    rw [if_neg hdirector, execMpiOpRc, if_neg hbits, hw]
    exact hundo

/-- **An event and its reverse.** -/
theorem event_undone {event : NwEvent} (htrack : c.enableMsgTracking = false)
    (hsampling : c.enableSampling = false) (hevent : event.usesQueues = true)
    (h : nwTestEventHandler c k r event = .ok w) : nwTestEventHandlerRc c event w =
      .ok { r.gc k with s := event.restored c.toReplayCtx (r.gc k) } := by
  unfold nwTestEventHandler at h
  split_ifs at h
  dsimp only at h
  cases event with
  | sendArrived m =>
    obtain ⟨e, he, rfl⟩ := map_eq_ok h
    have hundo := updateArrivalQueue_undone htrack rfl rfl he
    change (updateArrivalQueueRc e.s e.m e.bf).map _ = _
    rw [hundo]
    rfl
  | rendArrived m =>
    obtain ⟨e, he, rfl⟩ := map_eq_ok h
    have hundo := handleRendArrived_undone htrack rfl he
    change (if e.bf.c8 then updateCompletedQueueRc e.s e.m e.bf else .ok e.s).map _ = _
    generalize (if e.bf.c8 then updateCompletedQueueRc e.s e.m e.bf else .ok e.s) = back at hundo ⊢
    obtain ⟨s, rfl, hs⟩ := map_eq_ok hundo
    exact congrArg (fun s => (.ok { r.gc k with s := s } : Except String Rank)) hs.symm
  | rendAckArrived a => cases hevent
  | sendPosted m rendSend =>
    obtain rfl := Except.ok.inj h
    exact handleSendPosted_undone rfl
  | getNext m op => exact execMpiOp_queues htrack hsampling hevent h

/-- The queues, waits and counts that an event works on, and the stacks, are the same. -/
structure SameQueues (r r' : Rank) : Prop where
  arrivalQueue : r'.s.arrivalQueue = r.s.arrivalQueue
  pendingRecvsQueue : r'.s.pendingRecvsQueue = r.s.pendingRecvsQueue
  completedReqs : r'.s.completedReqs = r.s.completedReqs
  waitOp : r'.s.waitOp = r.s.waitOp
  recvTime : r'.s.recvTime = r.s.recvTime
  waitTime : r'.s.waitTime = r.s.waitTime
  numRecvs : r'.t.numRecvs = r.t.numRecvs
  numBytesRecvd : r'.s.numBytesRecvd = r.s.numBytesRecvd
  processedOps : r'.s.processedOps = r.s.processedOps
  processedWaitOp : r'.s.processedWaitOp = r.s.processedWaitOp
  matchedReqs : r'.s.matchedReqs = r.s.matchedReqs

/-- The reverse handler gives the rank back as the forward handler found it, when that had dropped
what is older than GVT from the stacks. -/
def EventUndone (c : RankCtx) (k : Kept) (r : Rank) (event : NwEvent) (w : Work) : Prop :=
  ∃ r', nwTestEventHandlerRc c event w = .ok r' ∧ SameQueues (r.gc k) r'

/-- **The condition**: no wait for several requests comes while a wait is pending, and no receive
ends a pending wait when it is posted, unless the time of receives is that of the waits by
chance. -/
def NwEvent.WaitsApart (c : ReplayCtx) (r : Rank) : NwEvent → Prop
  | .getNext _ (.irecv u) => r.surrogate = false → (u.recvOp .irecv).endsWait c r.s = true →
      r.s.sample.waitTime = r.s.recvTime
  | .getNext _ (.waitall _) => r.surrogate = false → r.s.waitOp = none
  | _ => True

/-- The reverse leaves the queues as they were exactly under the condition. -/
theorem restored_iff {event : NwEvent} {cr : ReplayCtx} :
    SameQueues r { r with s := event.restored cr r } ↔ event.WaitsApart cr r := by
  have hsame : SameQueues r { r with s := r.s } :=
    ⟨rfl, rfl, rfl, rfl, rfl, rfl, rfl, rfl, rfl, rfl, rfl⟩
  cases event with
  | getNext m op =>
    cases hr : r.surrogate with
    | true =>
      rw [NwEvent.restored, if_pos hr]
      refine iff_of_true hsame ?_
      cases op with
      | irecv u => exact fun h => absurd (hr.symm.trans h) Bool.noConfusion
      | waitall reqs => exact fun h => absurd (hr.symm.trans h) Bool.noConfusion
      | _ => trivial
    | false =>
      rw [NwEvent.restored, if_neg (Bool.eq_false_iff.1 hr)]
      cases op with
      | irecv u =>
        constructor
        · intro h _ hends
          have htime : (u.recvOp .irecv).restoredTime cr r.s = r.s.recvTime := h.recvTime
          rwa [RecvOp.restoredTime, if_pos hends] at htime
        · intro h
          refine ⟨rfl, rfl, rfl, rfl, ?_, rfl, rfl, rfl, rfl, rfl, rfl⟩
          change (u.recvOp .irecv).restoredTime cr r.s = r.s.recvTime
          unfold RecvOp.restoredTime
          split_ifs with hends
          · exact h hr hends
          · rfl
      | waitall reqs =>
        constructor
        · exact fun h _ => h.waitOp.symm
        · exact fun h => ⟨rfl, rfl, rfl, (h hr).symm, rfl, rfl, rfl, rfl, rfl, rfl, rfl⟩
      | _ => exact iff_of_true hsame trivial
  | _ => exact iff_of_true hsame trivial

/-- **Rollback of the queues and the waits.**  Without tracking and samples, every event that works
on the queues of a rank is undone exactly if the waits stay apart. -/
theorem event_undone_iff {event : NwEvent} (htrack : c.enableMsgTracking = false)
    (hsampling : c.enableSampling = false) (hevent : event.usesQueues = true)
    (h : nwTestEventHandler c k r event = .ok w) :
    EventUndone c k r event w ↔ event.WaitsApart c.toReplayCtx (r.gc k) := by
  have hundo := event_undone htrack hsampling hevent h
  rw [← restored_iff]
  constructor
  · rintro ⟨r', hr', hsame⟩
    obtain rfl := Except.ok.inj (hundo.symm.trans hr')
    exact hsame
  · intro hsame
    exact ⟨_, hundo, hsame⟩

theorem event_undone_iff_waitall : ∃ w,
    nwTestEventHandler oneRank ⟨0, 0, 0⟩ (.init oneRank 0 0 0 0 0)
      (.getNext blankMsg (.waitall [3, 4])) = .ok w ∧
    EventUndone oneRank ⟨0, 0, 0⟩ (.init oneRank 0 0 0 0 0)
      (.getNext blankMsg (.waitall [3, 4])) w :=
  ⟨_, rfl, (event_undone_iff rfl rfl rfl rfl).2 fun _ => rfl⟩

end Events

namespace Jobs

theorem SingleToken.undone {jobs : Jobs} {net : Net (fun _ : Lpid => Node) Event} {d : Lpid}
    {e : Event} {k : Kept} {w : Work} (h : jobs.SingleToken net)
    (he : (d, e) ∈ net.inFlight) (htrack : jobs.ctx.enableMsgTracking = false)
    (hsampling : jobs.ctx.enableSampling = false)
    (hevent : (nwEvent (net.nodes d) e).usesQueues = true)
    (hw : nwTestEventHandler (jobs.atTime now) k (net.nodes d).r
      (nwEvent (net.nodes d) e) = .ok w) :
    EventUndone (jobs.atTime now) k (net.nodes d).r (nwEvent (net.nodes d) e) w := by
  refine ⟨_, event_undone (by exact htrack) (by exact hsampling) hevent hw, restored_iff.2 ?_⟩
  cases e with
  | getNext =>
    have hnone : ((net.nodes d).r.gc k).s.waitOp = none := h.noWait d he
    rw [nwEvent]
    cases nextOp (net.nodes d).trace with
    | irecv u =>
      intro _ hends
      simp [RecvOp.endsWait, NwState.waitEnds, hnone] at hends
    | waitall reqs => exact fun _ => hnone
    | _ => trivial
  | _ => trivial

theorem Inv.run {jobs : Jobs} {net net' : Net (fun _ : Lpid => Node) Event}
    {ls : List (NetLabel Lpid Event Env)} (h : jobs.Inv net)
    (hls : ∀ l ∈ ls, ∃ i ω, l = .deliver i ω)
    (hsigns : jobs.system.machine.Meets SignTells net ls)
    (hrun : jobs.system.machine.run net ls = some net') : jobs.Inv net' := by
  induction ls generalizing net with
  | nil =>
    cases hrun
    exact h
  | cons l ls ih =>
    obtain ⟨mid, hstep, hrest⟩ := Machine.run_cons_eq_some.1 hrun
    obtain ⟨ω, d, e, node', outs, rest, hh, hevent, hcases⟩ := LpSystem.step_handles hstep
    rw [List.forall_mem_cons] at hls
    refine ih ?_ hls.2 (hsigns.2 mid hstep) hrest
    obtain ⟨i, ω', rfl⟩ := hls.1
    obtain ⟨hl, -⟩ | ⟨-, hperm⟩ := hcases
    · cases hl
    · exact h.step hh hperm (hsigns.1.brought hevent)

/-- **Every event of a run is undone** that works on the queues of a rank, whatever the order of the
events before it, if the sign of the request tells for each long message whether its receive
blocks. -/
theorem run_event_undone (jobs : Jobs) {net : Net (fun _ : Lpid => Node) Event}
    {ls : List (NetLabel Lpid Event Env)} (hls : ∀ l ∈ ls, ∃ i ω, l = .deliver i ω)
    (hsigns : jobs.system.machine.Meets SignTells jobs.init ls)
    (hrun : jobs.system.machine.run jobs.init ls = some net)
    (htrack : jobs.ctx.enableMsgTracking = false) (hsampling : jobs.ctx.enableSampling = false)
    {d : Lpid} {e : Event} (he : (d, e) ∈ net.inFlight)
    (hevent : (nwEvent (net.nodes d) e).usesQueues = true) {now : STime} {k : Kept} {w : Work}
    (hw : nwTestEventHandler (jobs.atTime now) k (net.nodes d).r
      (nwEvent (net.nodes d) e) = .ok w) :
    EventUndone (jobs.atTime now) k (net.nodes d).r (nwEvent (net.nodes d) e) w :=
  ((inv_init jobs).run hls hsigns hrun).singleToken.undone he htrack hsampling hevent hw

theorem run_event_undone_negative : ∃ net d e w,
    (longMessage 4294967295).system.machine.run (longMessage 4294967295).init (inOrder 2) =
    some net ∧
      (d, e) ∈ net.inFlight ∧
        EventUndone ((longMessage 4294967295).atTime 1) ⟨0, 0, 0⟩ (net.nodes d).r
          (nwEvent (net.nodes d) e) w := by
  have hfacts : ((longMessage 4294967295).system.machine.run (longMessage 4294967295).init
      (inOrder 2)).map (fun net => net.inFlight.any fun x =>
        (nwEvent (net.nodes x.1) x.2).usesQueues &&
          (nwTestEventHandler ((longMessage 4294967295).atTime 1) ⟨0, 0, 0⟩ (net.nodes x.1).r
            (nwEvent (net.nodes x.1) x.2)).toOption.isSome) = some true := by
    decide +kernel
  obtain ⟨net, hnet, hany⟩ := Option.map_eq_some_iff.1 hfacts
  obtain ⟨⟨d, e⟩, he, hboth⟩ := List.any_eq_true.1 hany
  obtain ⟨hevent, hok⟩ := Bool.and_eq_true_iff.1 hboth
  obtain ⟨w, hw⟩ := Option.isSome_iff_exists.1 hok
  have hls : ∀ l ∈ inOrder 2, ∃ i ω, l = .deliver i ω := fun l hl =>
    ⟨_, _, List.eq_of_mem_replicate hl⟩
  exact ⟨net, d, e, w, hnet, he, run_event_undone (longMessage 4294967295) hls
    (by decide +kernel) hnet
    rfl rfl he hevent (toOption_eq_some hw)⟩

/-- Rank 0 waits for a request that nothing completes, and has a long message with a request that is
negative as an `int`. -/
def secondToken : Jobs where
  ctx := twoRankCtx
  lps := [0, 1]
  appId _ := 0
  localRank d := d.toNat
  qosLevel _ := 0
  trace d :=
    if d = 0 then
      [.irecv ⟨1, 0, 10000, 7, 2147483648⟩, .irecv ⟨1, 0, 10, 8, 9⟩, .wait 9,
        .waitall [9, 2147483648]]
    else [.send ⟨1, 0, 10000, 7, 0⟩]
  nodup := twoRanks_nodup
  localRank_nonneg := twoRanks_nonneg
  localRank_lt := twoRanks_lt
  lpid := twoRanks_lpid
  sender := by
    intro d hd u hu
    obtain rfl | rfl : d = 0 ∨ d = 1 := by simpa using hd
    · simp at hu
    · obtain rfl : u = ⟨1, 0, 10000, 7, 0⟩ := by simpa using hu
      rfl
  known := by
    intro d hd n hn
    obtain rfl | rfl : d = 0 ∨ d = 1 := by simpa using hd
    · simp at hn
    · simp at hn

/-- The event of rank 0 that comes while the rank waits: its next operation, handled. -/
def secondNext (net : Net (fun _ : Lpid => Node) Event) : Except String Work :=
  nwTestEventHandler (secondToken.atTime 1) ⟨0, 0, 0⟩ (net.nodes 0).r
    (nwEvent (net.nodes 0) .getNext)

/-- The next operation of rank 0 comes while a wait is pending: it is rolled back, and the wait is
lost. -/
theorem wait_lost : ∃ net w,
    secondToken.system.machine.run secondToken.init (inOrder 8) = some net ∧
      (0, .getNext) ∈ net.inFlight ∧ secondNext net = .ok w ∧
        ¬EventUndone (secondToken.atTime 1) ⟨0, 0, 0⟩ (net.nodes 0).r
          (nwEvent (net.nodes 0) .getNext) w := by
  have hstate : (secondToken.system.machine.run secondToken.init (inOrder 8)).map (fun net =>
      (decide ((0, .getNext) ∈ net.inFlight), (net.nodes 0).r.s.waitOp.isSome,
        (secondNext net).toOption.map fun w =>
          (nwTestEventHandlerRc (secondToken.atTime 1) (nwEvent (net.nodes 0) .getNext)
            w).toOption.map
            fun r' => r'.s.waitOp.isSome)) = some (true, true, some (some false)) := by
    decide +kernel
  obtain ⟨net, hnet, hvalues⟩ := Option.map_eq_some_iff.1 hstate
  simp only [Prod.mk.injEq, decide_eq_true_eq] at hvalues
  obtain ⟨hflight, hwait, hundo⟩ := hvalues
  obtain ⟨w, hw, hback⟩ := Option.map_eq_some_iff.1 hundo
  obtain ⟨r', hr', hnone⟩ := Option.map_eq_some_iff.1 hback
  refine ⟨net, w, hnet, hflight, toOption_eq_some hw, ?_⟩
  rintro ⟨r'', hr'', hsame⟩
  obtain rfl := Except.ok.inj (hr''.symm.trans (toOption_eq_some hr'))
  have hkept : r''.s.waitOp = (net.nodes 0).r.s.waitOp := hsame.waitOp
  rw [hkept, hwait] at hnone
  cases hnone

end Jobs

end CodesSim.Replay
