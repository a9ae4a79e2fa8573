import CodesSim.Lib.Matching
import CodesSim.Replay.Basic

/-!
# Matching in the MPI replay

The two queues of a rank are the waiting requests and arrivals of a `Matcher`, whatever else the
handlers do (`Tracked.tracks`).  `Tracked` follows a rank through a history of arriving messages and
posted receives: it keeps the event numbers of the queue entries and reads from the index that a
handler leaves in its event which entry was taken out.

`matching_complete` says what MPI asks for: no message and receive that fit each other wait, nothing
is matched twice, and messages of one source and tag do not overtake each other.
-/

namespace CodesSim.Replay

/-! ### Histories -/

/-- What happens to a rank. -/
inductive RankEvent where
  /-- A message arrives (`MPI_SEND_ARRIVED`). -/
  | arrive (now : STime) (m : NwMsg)
  /-- The trace posts a receive (`MPI_OP_GET_NEXT`). -/
  | recv (now : STime) (m : NwMsg) (op : RecvOp)
  /-- Any other event: it may change the state but for the two queues. -/
  | other (rest : NwState)

/-- The bit field at the start of an event. -/
def NwBf.zero : NwBf := ⟨false, false, false, false, false, false, false, false, false⟩

/-- The lists as `nw_test_init` sets them up. -/
def NwState.initQueues (s : NwState) : NwState :=
  { s with arrivalQueue := [], pendingRecvsQueue := [], completedReqs := [] }

/-- A rank with the event numbers of its queue entries and of what was matched. -/
structure Tracked where
  s : NwState
  /-- The numbers of the entries of `pendingRecvsQueue`. -/
  recvIds : List ℕ
  /-- The numbers of the entries of `arrivalQueue`. -/
  arrivalIds : List ℕ
  /-- The receives and messages matched so far. -/
  matched : List (ℕ × ℕ)
  clock : ℕ

namespace Tracked

/-- The start of a history. -/
def start (s : NwState) : Tracked := ⟨s.initQueues, [], [], [], 0⟩

/-- One event.  A handler leaves in `foundMatch` the index of the entry it took out, or `-1` when
it has queued its own. -/
def step (c : ReplayCtx) (t : Tracked) : RankEvent → Except String Tracked
  | .arrive now m =>
    match updateArrivalQueue { c with now := now } ⟨t.s, m, .zero, []⟩ with
    | .error text => .error text
    | .ok e =>
      let k := e.m.foundMatch
      if k < 0 then
        .ok { t with s := e.s, arrivalIds := t.arrivalIds ++ [t.clock], clock := t.clock + 1 }
      else
        .ok { t with
          s := e.s
          recvIds := t.recvIds.eraseIdx k.toNat
          matched := t.matched ++ [(t.recvIds.getD k.toNat 0, t.clock)]
          clock := t.clock + 1 }
  | .recv now m op =>
    match codesExecMpiRecv { c with now := now } ⟨t.s, m, .zero, []⟩ op with
    | .error text => .error text
    | .ok e =>
      let k := e.m.foundMatch
      if k < 0 then
        .ok { t with s := e.s, recvIds := t.recvIds ++ [t.clock], clock := t.clock + 1 }
      else
        .ok { t with
          s := e.s
          arrivalIds := t.arrivalIds.eraseIdx k.toNat
          matched := t.matched ++ [(t.clock, t.arrivalIds.getD k.toNat 0)]
          clock := t.clock + 1 }
  | .other rest =>
    let s := { rest with
      arrivalQueue := t.s.arrivalQueue
      pendingRecvsQueue := t.s.pendingRecvsQueue }
    .ok { t with s := s, clock := t.clock + 1 }

/-- A history; a failure ends the program. -/
def run (c : ReplayCtx) : Tracked → List RankEvent → Except String Tracked
  | t, [] => .ok t
  | t, e :: es =>
    match t.step c e with
    | .error text => .error text
    | .ok t' => run c t' es

theorem run_append (c : ReplayCtx) (t : Tracked) (pre post : List RankEvent) :
    run c t (pre ++ post) =
      match run c t pre with
      | .error text => .error text
      | .ok t' => run c t' post := by
  induction pre generalizing t with
  | nil => rfl
  | cons e pre ih =>
    rw [List.cons_append, run, run]
    cases t.step c e with
    | error text => rfl
    | ok t' => exact ih t'

end Tracked

theorem firstMatch_getElem? {α : Type*} {p : α → Bool} {n index : ℕ} {xs : List α} {x : α}
    (h : firstMatch p n xs = some (index, x)) : n ≤ index ∧ xs[index - n]? = some x := by
  induction xs generalizing n with
  | nil => cases h
  | cons y ys ih =>
    unfold firstMatch at h
    split_ifs at h
    · cases h
      exact ⟨le_rfl, by simp⟩
    · obtain ⟨hle, hget⟩ := ih h
      refine ⟨by omega, ?_⟩
      rw [show index - n = index - (n + 1) + 1 by omega, List.getElem?_cons_succ]
      exact hget

/-! ### The queues in the handlers -/

/-- The two queues of a handler at work. -/
def Ev.queues (e : Ev) : List QMsg × List QMsg := (e.s.arrivalQueue, e.s.pendingRecvsQueue)

@[simp] theorem queues_setBf (e : Ev) (f : NwBf → NwBf) : (e.setBf f).queues = e.queues := by
  rfl

@[simp] theorem queues_setMsg (e : Ev) (f : NwMsg → NwMsg) : (e.setMsg f).queues = e.queues := by
  rfl

@[simp] theorem queues_codesIssueNextEvent (e : Ev) :
    (codesIssueNextEvent e).queues = e.queues := by
  rfl

@[simp] theorem queues_addRecvTime (e : Ev) (t : STime) : (addRecvTime e t).queues = e.queues := by
  rfl

@[simp] theorem queues_saveRecvTimeSend (e : Ev) : (saveRecvTimeSend e).queues = e.queues := by
  rfl

@[simp] theorem queues_saveRecvTimeNext (e : Ev) : (saveRecvTimeNext e).queues = e.queues := by
  rfl

@[simp] theorem queues_countBytes (e : Ev) : (countBytes e).queues = e.queues := by
  rfl

@[simp] theorem queues_finishWait (now : STime) (e : Ev) (w : PendingWaits) :
    (finishWait now e w).queues = e.queues := by rfl

@[simp] theorem queues_notifyPostedWait (e : Ev) (req : UInt32) :
    (notifyPostedWait e req).1.queues = e.queues := by
  rw [notifyPostedWait]
  dsimp only
  split
  · rfl
  · split_ifs <;> rfl

@[simp] theorem queues_updateCompletedQueue (now : STime) (e : Ev) (req : UInt32) :
    (updateCompletedQueue now e req).queues = e.queues := by
  rw [updateCompletedQueue]
  dsimp only
  split
  · simp
  · exact (queues_notifyPostedWait _ req).trans (by simp)

variable {c : ReplayCtx} {e e' : Ev}

variable {q : QMsg}

theorem queues_sendAckBack {req : ℤ}
    (h : sendAckBack c e q req = .ok e') : e'.queues = e.queues := by
  rw [sendAckBack] at h
  split at h
  · cases h
  · split at h
    · cases h
    · obtain rfl := Except.ok.inj h
      rfl

theorem sendCallback_ok (h : sendCallback c e = .ok e') : e'.queues = e.queues ∧ e'.m = e.m := by
  rw [sendCallback] at h
  split_ifs at h
  · split at h
    · cases h
    · obtain rfl := Except.ok.inj h
      exact ⟨rfl, rfl⟩
  · obtain rfl := Except.ok.inj h
    exact ⟨rfl, rfl⟩

@[simp] theorem queues_trackMessageSize (c : ReplayCtx) (e : Ev) (q : QMsg) (isSend : Bool) :
    (trackMessageSize c e q isSend).queues = e.queues := by
  rw [trackMessageSize]
  split_ifs <;> rfl

theorem queues_receiveMatched {qi : QMsg}
    (h : receiveMatched c e qi q = .ok e') : e'.queues = e.queues := by
  rw [receiveMatched] at h
  dsimp only at h
  split_ifs at h
  · rw [queues_sendAckBack h, queues_setBf, queues_trackMessageSize, queues_setMsg]
  all_goals
    obtain rfl := Except.ok.inj h
    simp

theorem queues_messageMatched {qi : QMsg}
    (h : messageMatched c e qi q = .ok e') : e'.queues = e.queues := by
  rw [messageMatched] at h
  dsimp only at h
  generalize c.now - q.reqInitTime = waited at h
  by_cases hr : qi.numBytes ≥ c.eagerThreshold
  · rw [if_pos hr] at h
    generalize hsent : sendAckBack c _ qi _ = r at h
    cases r with
    | error text => cases h
    | ok e₁ =>
      obtain rfl := Except.ok.inj h
      rw [queues_addRecvTime, queues_saveRecvTimeNext, queues_sendAckBack hsent, queues_setBf,
        queues_setMsg, queues_trackMessageSize]
  · rw [if_neg hr] at h
    split_ifs at h
    all_goals
      obtain rfl := Except.ok.inj h
      simp

/-- **Looking for a receive** either changes nothing or takes the first receive that fits out of
its queue. -/
theorem rmMatchingRcv_ok {k : ℤ} (h : rmMatchingRcv c e q = .ok (e', k)) :
    (firstMatch (fun qi => fits qi q) 0 e.s.pendingRecvsQueue = none ∧ k = -1 ∧ e' = e) ∨
    ∃ index qi, firstMatch (fun qi => fits qi q) 0 e.s.pendingRecvsQueue = some (index, qi) ∧
      k = index ∧ e'.queues = (e.s.arrivalQueue, e.s.pendingRecvsQueue.eraseIdx index) := by
  rw [rmMatchingRcv] at h
  cases hm : firstMatch (fun qi => fits qi q) 0 e.s.pendingRecvsQueue with
  | none =>
    simp only [hm] at h
    obtain ⟨rfl, rfl⟩ := Prod.mk.inj (Except.ok.inj h)
    exact .inl ⟨rfl, rfl, rfl⟩
  | some r =>
    obtain ⟨index, qi⟩ := r
    simp only [hm] at h
    split at h
    · cases h
    · rename_i e₁ hmatched
      obtain ⟨rfl, rfl⟩ := Prod.mk.inj (Except.ok.inj h)
      obtain ⟨ha, hp⟩ := Prod.mk.inj (queues_receiveMatched hmatched)
      refine .inr ⟨index, qi, rfl, rfl, ?_⟩
      simp only [Ev.queues, Ev.setState, ha, hp]

/-- **Looking for a message** either changes nothing or takes the first message that fits out of
its queue. -/
theorem rmMatchingSend_ok {k : ℤ} (h : rmMatchingSend c e q = .ok (e', k)) :
    (firstMatch (fun qi => fits q qi) 0 e.s.arrivalQueue = none ∧ k = -1 ∧ e' = e) ∨
    ∃ index qi, firstMatch (fun qi => fits q qi) 0 e.s.arrivalQueue = some (index, qi) ∧
      k = index ∧ e'.queues = (e.s.arrivalQueue.eraseIdx index, e.s.pendingRecvsQueue) := by
  rw [rmMatchingSend] at h
  cases hm : firstMatch (fun qi => fits q qi) 0 e.s.arrivalQueue with
  | none =>
    simp only [hm] at h
    obtain ⟨rfl, rfl⟩ := Prod.mk.inj (Except.ok.inj h)
    exact .inl ⟨rfl, rfl, rfl⟩
  | some r =>
    obtain ⟨index, qi⟩ := r
    simp only [hm] at h
    split at h
    · cases h
    · rename_i e₁ hmatched
      obtain ⟨rfl, rfl⟩ := Prod.mk.inj (Except.ok.inj h)
      obtain ⟨ha, hp⟩ := Prod.mk.inj (queues_messageMatched hmatched)
      refine .inr ⟨index, qi, rfl, rfl, ?_⟩
      simp only [Ev.queues, Ev.setState, ha, hp]

/-- **A message that arrives** goes to the end of its queue, or the first receive that fits is taken
out of the other queue. -/
theorem updateArrivalQueue_ok (h : updateArrivalQueue c e = .ok e') :
    (firstMatch (fun qi => fits qi e.m.entry) 0 e.s.pendingRecvsQueue = none ∧
      e'.m.foundMatch = -1 ∧
      e'.queues = (e.s.arrivalQueue ++ [e.m.entry], e.s.pendingRecvsQueue)) ∨
    ∃ index qi, firstMatch (fun qi => fits qi e.m.entry) 0 e.s.pendingRecvsQueue =
    some (index, qi) ∧
      e'.m.foundMatch = index ∧
      e'.queues = (e.s.arrivalQueue, e.s.pendingRecvsQueue.eraseIdx index) := by
  rw [updateArrivalQueue] at h
  split_ifs at h
  split at h
  · cases h
  · rename_i e₁ hcb
    obtain ⟨hq₁, hm₁⟩ := sendCallback_ok hcb
    rw [queues_countBytes, queues_saveRecvTimeSend] at hq₁
    obtain ⟨ha₁, hp₁⟩ := Prod.mk.inj hq₁
    have hentry : e₁.m.entry = e.m.entry := by rw [hm₁]; rfl
    dsimp only at h
    split at h
    · cases h
    · rename_i e₂ k hrm
      rw [hentry] at h hrm
      obtain ⟨hnone, rfl, rfl⟩ | ⟨index, qi, hsome, rfl, hq₂⟩ := rmMatchingRcv_ok hrm
      · rw [if_pos (by omega)] at h
        obtain rfl := Except.ok.inj h
        rw [hp₁] at hnone
        refine .inl ⟨hnone, rfl, ?_⟩
        simp only [Ev.queues, Ev.setState, Ev.setMsg, ha₁, hp₁]
      · rw [if_neg (by omega)] at h
        obtain rfl := Except.ok.inj h
        rw [hp₁] at hsome
        rw [ha₁, hp₁] at hq₂
        have hk : (if (index : ℤ) < 0 then -1 else (index : ℤ)) = index := if_neg (by omega)
        exact .inr ⟨index, qi, hsome, hk, hq₂⟩

/-- **A receive that is posted** goes to the end of its queue, or the first message that fits is
taken out of the other queue. -/
theorem codesExecMpiRecv_ok {op : RecvOp} (h : codesExecMpiRecv c e op = .ok e') :
    (firstMatch (fun qi => fits (op.entry c.now) qi) 0 e.s.arrivalQueue = none ∧
      e'.m.foundMatch = -1 ∧
      e'.queues = (e.s.arrivalQueue, e.s.pendingRecvsQueue ++ [op.entry c.now])) ∨
    ∃ index qi, firstMatch (fun qi => fits (op.entry c.now) qi) 0 e.s.arrivalQueue =
        some (index, qi) ∧
      e'.m.foundMatch = index ∧
      e'.queues = (e.s.arrivalQueue.eraseIdx index, e.s.pendingRecvsQueue) := by
  rw [codesExecMpiRecv] at h
  dsimp only at h
  split at h
  · cases h
  · rename_i e₁ k hrm
    have hnext : ∀ e₂ : Ev, (if op.opType = .irecv then
        codesIssueNextEvent (e₂.setBf fun b => { b with c6 := true }) else e₂).queues =
          e₂.queues := by
      intro e₂
      split_ifs <;> rfl
    obtain ⟨hnone, rfl, rfl⟩ | ⟨index, qi, hsome, rfl, hq₁⟩ := rmMatchingSend_ok hrm
    · rw [if_pos (by omega)] at h
      obtain rfl := Except.ok.inj h
      refine .inl ⟨hnone, rfl, ?_⟩
      obtain ⟨ha, hp⟩ := Prod.mk.inj (hnext (saveRecvTimeNext e))
      simp only [Ev.queues, Ev.setState, Ev.setMsg, ha, hp]
      rfl
    · rw [if_neg (by omega)] at h
      obtain rfl := Except.ok.inj h
      have hk : (if (index : ℤ) < 0 then -1 else (index : ℤ)) = index := if_neg (by omega)
      exact .inr ⟨index, qi, hsome, hk, (hnext e₁).trans hq₁⟩

/-! ### The queues as a matcher -/

theorem firstMatch_map {α β : Type*} (p : α → Bool) (f : β → α) (n : ℕ) (xs : List β) :
    firstMatch p n (xs.map f) =
      (xs.find? fun x => p (f x)).map fun x => (n + xs.findIdx fun x => p (f x), f x) := by
  induction xs generalizing n with
  | nil => rfl
  | cons x xs ih =>
    rw [List.map_cons, firstMatch, List.find?_cons, List.findIdx_cons]
    cases hp : p (f x) with
    | true => simp
    | false =>
      simp only [Bool.false_eq_true, ↓reduceIte, cond_false, ih]
      cases xs.find? fun x => p (f x) with
      | none => rfl
      | some y =>
        simp
        omega

/-- The entry found is the one at the index, and the others are left. -/
theorem taken_map {α β : Type*} {p : β → Bool} {xs : List β} {x : β} (h : xs.find? p = some x)
    (f : β → α) :
    (xs.map f).eraseIdx (xs.findIdx p) = (xs.eraseP p).map f ∧
      (xs.map f)[xs.findIdx p]? = some (f x) := by
  induction xs with
  | nil => cases h
  | cons y ys ih =>
    rw [List.find?_cons] at h
    rw [List.findIdx_cons, List.eraseP_cons]
    cases hp : p y with
    | true =>
      rw [hp] at h
      obtain rfl := Option.some.inj h
      simp
    | false =>
      rw [hp] at h
      simpa using ih h

/-- The event as one of the matcher. -/
def RankEvent.matchEvent : RankEvent → Matcher.Event QMsg QMsg
  | arrive _ m => .arrive m.entry
  | recv now _ op => .post (op.entry now)
  | other _ => .other

/-- The queues of a rank, with their numbers, are those of a matcher. -/
structure Tracked.Tracks (t : Tracked) (l : Matcher QMsg QMsg) : Prop where
  recvs : t.s.pendingRecvsQueue = l.posted.map Prod.snd
  recvIds : t.recvIds = l.posted.map Prod.fst
  msgs : t.s.arrivalQueue = l.arrived.map Prod.snd
  arrivalIds : t.arrivalIds = l.arrived.map Prod.fst
  matched : t.matched = l.matched.map fun m => (m.1.1, m.2.1)
  clock : t.clock = l.clock

variable {l : Matcher QMsg QMsg}

variable {t : Tracked} {ev : RankEvent}

/-- **The rank does what the matcher does.** -/
theorem Tracked.Tracks.step {t' : Tracked} (h : t.Tracks l) (hs : t.step c ev = .ok t') :
    t'.Tracks (l.step fits ev.matchEvent) := by
  cases ev with
  | arrive now m =>
    rw [Tracked.step] at hs
    split at hs
    · cases hs
    · rename_i e hupd
      dsimp only at hs
      have hup := updateArrivalQueue_ok hupd
      simp only [h.recvs, h.msgs, firstMatch_map, Nat.zero_add] at hup
      rw [RankEvent.matchEvent, Matcher.step, Matcher.arrive]
      cases hf : l.posted.find? fun r => fits r.2 m.entry with
      | none =>
        simp only [hf, Option.map_none, reduceCtorEq, false_and, exists_false, or_false,
          true_and] at hup
        obtain ⟨hk, hq⟩ := hup
        obtain ⟨ha, hp⟩ := Prod.mk.inj hq
        rw [hk, if_pos (by omega)] at hs
        obtain rfl := Except.ok.inj hs
        constructor
        case recvs => exact hp
        case recvIds => exact h.recvIds
        case msgs => simp [ha]
        case arrivalIds => simp [h.arrivalIds, h.clock]
        case matched => exact h.matched
        case clock => simp [h.clock]
      | some x =>
        simp only [hf, Option.map_some, reduceCtorEq, false_and, false_or, Option.some.injEq,
          Prod.mk.injEq] at hup
        obtain ⟨index, qi, ⟨rfl, rfl⟩, hk, hq⟩ := hup
        obtain ⟨ha, hp⟩ := Prod.mk.inj hq
        rw [hk, if_neg (by omega), Int.toNat_natCast] at hs
        obtain rfl := Except.ok.inj hs
        constructor
        case recvs => exact hp.trans (taken_map hf Prod.snd).1
        case recvIds => simpa [h.recvIds] using (taken_map hf Prod.fst).1
        case msgs => exact ha
        case arrivalIds => exact h.arrivalIds
        case matched =>
          simp [h.recvIds, h.matched, h.clock, List.getD, (taken_map hf Prod.fst).2]
        case clock => simp [h.clock]
  | recv now m op =>
    rw [Tracked.step] at hs
    split at hs
    · cases hs
    · rename_i e hupd
      dsimp only at hs
      have hup := codesExecMpiRecv_ok hupd
      simp only [h.recvs, h.msgs, firstMatch_map, Nat.zero_add] at hup
      rw [RankEvent.matchEvent, Matcher.step, Matcher.post]
      cases hf : l.arrived.find? fun a => fits (op.entry now) a.2 with
      | none =>
        simp only [hf, Option.map_none, reduceCtorEq, false_and, exists_false, or_false,
          true_and] at hup
        obtain ⟨hk, hq⟩ := hup
        obtain ⟨ha, hp⟩ := Prod.mk.inj hq
        rw [hk, if_pos (by omega)] at hs
        obtain rfl := Except.ok.inj hs
        constructor
        case recvs => simp [hp]
        case recvIds => simp [h.recvIds, h.clock]
        case msgs => exact ha
        case arrivalIds => exact h.arrivalIds
        case matched => exact h.matched
        case clock => simp [h.clock]
      | some x =>
        simp only [hf, Option.map_some, reduceCtorEq, false_and, false_or, Option.some.injEq,
          Prod.mk.injEq] at hup
        obtain ⟨index, qi, ⟨rfl, rfl⟩, hk, hq⟩ := hup
        obtain ⟨ha, hp⟩ := Prod.mk.inj hq
        rw [hk, if_neg (by omega), Int.toNat_natCast] at hs
        obtain rfl := Except.ok.inj hs
        constructor
        case recvs => exact hp
        case recvIds => exact h.recvIds
        case msgs => exact ha.trans (taken_map hf Prod.snd).1
        case arrivalIds => simpa [h.arrivalIds] using (taken_map hf Prod.fst).1
        case matched =>
          simp [h.arrivalIds, h.matched, h.clock, List.getD, (taken_map hf Prod.fst).2]
        case clock => simp [h.clock]
  | other rest =>
    obtain rfl := Except.ok.inj hs
    exact ⟨h.recvs, h.recvIds, h.msgs, h.arrivalIds, h.matched, by
      simp [RankEvent.matchEvent, Matcher.step, h.clock]⟩

variable {evs : List RankEvent}

/-- **A history of a rank is a run of the matcher.** -/
theorem Tracked.tracks {s : NwState} (h : Tracked.run c (.start s) evs = .ok t) :
    t.Tracks (Matcher.run fits (evs.map RankEvent.matchEvent)) := by
  induction evs using List.reverseRecOn generalizing t with
  | nil =>
    obtain rfl := Except.ok.inj h
    exact ⟨rfl, rfl, rfl, rfl, rfl, rfl⟩
  | append_singleton evs ev ih =>
    rw [Tracked.run_append] at h
    cases hmid : Tracked.run c (.start s) evs with
    | error text => rw [hmid] at h; cases h
    | ok t₁ =>
      simp only [hmid, Tracked.run] at h
      cases hstep : t₁.step c ev with
      | error text => rw [hstep] at h; cases h
      | ok t₂ =>
        rw [hstep] at h
        obtain rfl := Except.ok.inj h
        rw [List.map_append, List.map_singleton, Matcher.run_append]
        exact (ih hmid).step hstep

/-! ### The law of MPI -/

/-- The source and the tag of an arriving message. -/
def RankEvent.msgKey : RankEvent → Option (ℤ × ℤ)
  | arrive _ m => some (m.entry.sourceRank, m.entry.tag)
  | _ => none

/-- What holds of the matches of a history. -/
structure Matched (evs : List RankEvent) (t : Tracked) : Prop where
  /-- No message and receive that fit wait. -/
  complete : ∀ r ∈ t.s.pendingRecvsQueue, ∀ a ∈ t.s.arrivalQueue, fits r a = false
  /-- The receives that wait are the events with their numbers. -/
  pending : ∀ x ∈ t.recvIds.zip t.s.pendingRecvsQueue,
    ∃ now m op, evs[x.1]? = some (.recv now m op) ∧ x.2 = op.entry now
  /-- Receives are matched to messages that fit. -/
  valid : ∀ p ∈ t.matched, ∃ now m op now' m', evs[p.1]? = some (.recv now m op) ∧
    evs[p.2]? = some (.arrive now' m') ∧ fits (op.entry now) m'.entry = true
  recvOnce : (t.matched.map Prod.fst).Nodup
  msgOnce : (t.matched.map Prod.snd).Nodup
  /-- Messages of one source and tag go, in the order they arrived, to receives in the order they
  were posted, whatever sources and tags these left open. -/
  inOrder : ∀ p ∈ t.matched, ∀ q ∈ t.matched,
    evs[p.2]?.bind RankEvent.msgKey = evs[q.2]?.bind RankEvent.msgKey → p.2 < q.2 → p.1 < q.1
  /-- A message is matched after those of its source and tag that arrived before it. -/
  notOvertaken : ∀ q ∈ t.matched, ∀ i < q.2,
    evs[i]?.bind RankEvent.msgKey = evs[q.2]?.bind RankEvent.msgKey → ∃ r, (r, i) ∈ t.matched

theorem fits_congr (r : QMsg) {a b : QMsg} (hs : a.sourceRank = b.sourceRank) (ht : a.tag = b.tag) :
    fits r a = fits r b := by
  rw [fits, fits, hs, ht]

theorem matchEvent_eq_arrive {a : QMsg} :
    ev.matchEvent = .arrive a ↔ ∃ now m, ev = .arrive now m ∧ a = m.entry := by
  cases ev <;> simp [RankEvent.matchEvent, eq_comm]

theorem matchEvent_eq_post {r : QMsg} :
    ev.matchEvent = .post r ↔ ∃ now m op, ev = .recv now m op ∧ r = op.entry now := by
  cases ev <;> simp [RankEvent.matchEvent, eq_comm]

theorem getElem?_arrive {i : ℕ} {a : QMsg}
    (h : (evs.map RankEvent.matchEvent)[i]? = some (.arrive a)) :
    ∃ now m, evs[i]? = some (.arrive now m) ∧ a = m.entry := by
  rw [List.getElem?_map] at h
  obtain ⟨ev, hev, he⟩ := Option.map_eq_some_iff.1 h
  obtain ⟨now, m, rfl, ha⟩ := matchEvent_eq_arrive.1 he
  exact ⟨now, m, hev, ha⟩

theorem getElem?_recv {i : ℕ} {r : QMsg} (h : (evs.map RankEvent.matchEvent)[i]? = some (.post r)) :
    ∃ now m op, evs[i]? = some (.recv now m op) ∧ r = op.entry now := by
  rw [List.getElem?_map] at h
  obtain ⟨ev, hev, he⟩ := Option.map_eq_some_iff.1 h
  obtain ⟨now, m, op, rfl, hr⟩ := matchEvent_eq_post.1 he
  exact ⟨now, m, op, hev, hr⟩

/-- The numbered receives that wait. -/
theorem Tracked.Tracks.zip (h : t.Tracks l) : t.recvIds.zip t.s.pendingRecvsQueue = l.posted := by
  rw [h.recvIds, h.recvs, List.zip_map']
  simp

theorem Tracked.Tracks.matchedLaws
    (h : t.Tracks l) (hinv : l.Inv fits) (hrec : l.Recorded (evs.map RankEvent.matchEvent)) :
    Matched evs t where
  complete := by
    intro r hr a ha
    rw [h.recvs] at hr
    rw [h.msgs] at ha
    obtain ⟨x, hx, rfl⟩ := List.mem_map.1 hr
    obtain ⟨y, hy, rfl⟩ := List.mem_map.1 ha
    exact hinv.complete x hx y hy
  pending := by
    intro x hx
    rw [h.zip] at hx
    exact getElem?_recv (hrec.posted x hx)
  valid := by
    intro p hp
    rw [h.matched] at hp
    obtain ⟨m, hm, rfl⟩ := List.mem_map.1 hp
    obtain ⟨hrecv, harr⟩ := hrec.matched m hm
    obtain ⟨now, x, op, hev, hr⟩ := getElem?_recv hrecv
    obtain ⟨now', y, hev', ha⟩ := getElem?_arrive harr
    exact ⟨now, x, op, now', y, hev, hev', hr ▸ ha ▸ hinv.matchedOk m hm⟩
  recvOnce := by
    rw [h.matched, List.map_map]
    exact hinv.requestsNodup
  msgOnce := by
    rw [h.matched, List.map_map]
    exact hinv.arrivalsNodup
  inOrder := by
    intro p hp q hq hkey hlt
    rw [h.matched] at hp hq
    obtain ⟨x, hx, rfl⟩ := List.mem_map.1 hp
    obtain ⟨y, hy, rfl⟩ := List.mem_map.1 hq
    obtain ⟨nx, mx, hex, hax⟩ := getElem?_arrive (hrec.matched x hx).2
    obtain ⟨ny, my, hey, hay⟩ := getElem?_arrive (hrec.matched y hy).2
    rw [hex, hey] at hkey
    obtain ⟨hs, ht⟩ := Prod.mk.inj (Option.some.inj hkey)
    rw [← hax, ← hay] at hs ht
    refine hinv.ordered hx hy ?_ ?_ hlt
    · rw [fits_congr _ hs ht]
      exact hinv.matchedOk y hy
    · rw [← fits_congr _ hs ht]
      exact hinv.matchedOk x hx
  notOvertaken := by
    intro q hq i hi hkey
    rw [h.matched] at hq
    obtain ⟨y, hy, rfl⟩ := List.mem_map.1 hq
    obtain ⟨ny, my, hey, hay⟩ := getElem?_arrive (hrec.matched y hy).2
    rw [hey] at hkey
    cases hei : evs[i]? with
    | none => rw [hei] at hkey; cases hkey
    | some ev =>
      cases ev with
      | recv now m op => rw [hei] at hkey; cases hkey
      | other rest => rw [hei] at hkey; cases hkey
      | arrive now m =>
        rw [hei] at hkey
        obtain ⟨hs, ht⟩ := Prod.mk.inj (Option.some.inj hkey)
        have hevent : (evs.map RankEvent.matchEvent)[i]? = some (.arrive m.entry) := by
          rw [List.getElem?_map, hei]
          rfl
        obtain hwait | ⟨r, hr⟩ := hrec.arrive_mem i m.entry hevent
        · -- a message that waits would have been taken before the later one
          have hfit : fits y.1.2 m.entry = true := by
            rw [fits_congr _ hs ht, ← hay]
            exact hinv.matchedOk y hy
          have := hinv.arrivedLast _ hwait y hy hfit
          omega
        · refine ⟨r.1, ?_⟩
          rw [h.matched]
          exact List.mem_map.2 ⟨_, hr, rfl⟩

/-- **Matching is complete and does not overtake.**  Along every history of a rank the laws of
`Matched` hold, and the next message goes to the earliest receive that it fits, if it fits one. -/
theorem matching_complete (c : ReplayCtx) (s : NwState) (evs : List RankEvent) (t : Tracked)
    (h : Tracked.run c (.start s) evs = .ok t) :
    Matched evs t ∧
    ∀ now m t', t.step c (.arrive now m) = .ok t' →
      (∃ r ∈ t.s.pendingRecvsQueue, fits r m.entry = true) →
      ∃ x ∈ t.recvIds.zip t.s.pendingRecvsQueue, fits x.2 m.entry = true ∧
        t'.matched = t.matched ++ [(x.1, evs.length)] ∧
        ∀ y ∈ t.recvIds.zip t.s.pendingRecvsQueue, fits y.2 m.entry = true → x.1 ≤ y.1 := by
  have htracks := Tracked.tracks h
  have hinv := Matcher.inv_run fits (evs.map RankEvent.matchEvent)
  have hrec := Matcher.recorded_run fits (evs.map RankEvent.matchEvent)
  refine ⟨htracks.matchedLaws hinv hrec, ?_⟩
  rintro now m t' hstep ⟨r, hr, hfit⟩
  rw [htracks.recvs] at hr
  obtain ⟨y, hy, rfl⟩ := List.mem_map.1 hr
  obtain ⟨x, hx, hxfit, hmatched, hfirst⟩ := hinv.arrive_earliest m.entry hy hfit
  rw [htracks.zip]
  refine ⟨x, hx, hxfit, ?_, hfirst⟩
  rw [(htracks.step hstep).matched, RankEvent.matchEvent, Matcher.step, hmatched, htracks.matched,
    hrec.clock]
  simp

/-- Two ranks on one node. -/
def twoRanks : ReplayCtx where
  conf := [⟨"G", 1, [⟨"nw-lp", none, 2⟩]⟩]
  eagerThreshold := 8192
  enableMsgTracking := false
  prioritizeCollectives := false
  globalIdOfJobRank := none
  now := 0

/-- A rank that has done nothing. -/
def idleRank : NwState where
  appId := 0
  qosLevel := 0
  recvTime := 0
  waitTime := 0
  numBytesRecvd := 0
  sample := ⟨0, 0, 0⟩
  arrivalQueue := []
  pendingRecvsQueue := []
  completedReqs := []
  waitOp := none
  msgSzList := []
  processedOps := []
  processedWaitOp := []
  matchedReqs := []

/-- A short message from rank 1. -/
def messageWithTag (tag : ℤ) : NwMsg where
  opType := .isend
  srcRank := 1
  destRank := 0
  numBytes := 64
  numMatched := 0
  simStartTime := 0
  reqId := 0
  matchedReq := 0
  tag := tag
  appId := 0
  foundMatch := 0
  waitCompleted := 0
  rc := ⟨0, 0, 0, 0, 0⟩

/-- Two messages with tag 7 and one with tag 8 arrive around a receive for tag 8 and two for any
tag. -/
def wildcardHistory : List RankEvent :=
  [.arrive 1 (messageWithTag 7), .recv 2 (messageWithTag 0) ⟨.irecv, 1, 0, 64, 8, 1⟩,
    .arrive 3 (messageWithTag 7), .recv 4 (messageWithTag 0) ⟨.irecv, 1, 0, 64, -1, 2⟩,
    .arrive 5 (messageWithTag 8), .recv 6 (messageWithTag 0) ⟨.recv, -1, 0, 64, -1, 3⟩]

theorem matching_complete_wildcards : ∃ t,
    Tracked.run twoRanks (.start idleRank) wildcardHistory = .ok t ∧
      t.matched = [(3, 0), (1, 4), (5, 2)] ∧ Matched wildcardHistory t := by
  have hmatched : (Tracked.run twoRanks (.start idleRank) wildcardHistory).toOption.map
      Tracked.matched = some [(3, 0), (1, 4), (5, 2)] := by decide +kernel
  cases h : Tracked.run twoRanks (.start idleRank) wildcardHistory with
  | error text => rw [h] at hmatched; cases hmatched
  | ok t =>
    rw [h] at hmatched
    exact ⟨t, rfl, Option.some.inj hmatched, (matching_complete _ _ _ _ h).1⟩

end CodesSim.Replay
