import CodesSim.Replay.Reverse

/-!
# Rollback of the trace

The operations of a trace that only count, send or wait for a while, and what their reverse gives
back.  The forward handler counts a reduction for all ranks twice, among the collective operations
and on its own; the reverse takes back the second only.  And the reverse of the end of a trace takes
the rank for one that had not finished.  `trace_undone_iff` says that everything else is undone, up
to the samples of the intervals, and that the trace hands out the operation again.
-/

namespace CodesSim.Replay

open Workload Outcome

variable {c : RankCtx} {w w' : Work} {r : Rank} {m : NwMsg} {op : WorkloadOp}

/-- What an operation leaves alone. -/
structure SameOp (w w' : Work) : Prop where
  op : w'.op = w.op
  c14 : w'.obf.c14 = w.obf.c14
  c18 : w'.obf.c18 = w.obf.c18
  trace : w'.r.trace = w.r.trace

theorem execMpiOpRc_eq (hobf : w.obf = .zero) (h : SameOp w w') :
    execMpiOpRc c w' = undoOp c w' w.op := by
  have hbits : ¬(w'.obf.c14 = true ∨ w'.obf.c18 = true) := by
    rw [h.c14, h.c18, hobf]
    simp [OpBf.zero]
  rw [execMpiOpRc, if_neg hbits, h.op]

theorem codesExecMpiSend_undone {opType : WkOp} {u : P2p} {st : STime} {isRend : Bool}
    (hobf : w.obf = .zero) (h : codesExecMpiSend c w opType u st isRend = .ok w') :
    SameOp w w' ∧ { codesExecMpiSendRc c w' with sampling := w.r.sampling } = w.r := by
  have h15 : w.obf.c15 = false := congrArg OpBf.c15 hobf
  have h16 : w.obf.c16 = false := congrArg OpBf.c16 hobf
  unfold codesExecMpiSend at h
  dsimp only at h
  split at h
  · cases h
  · split at h
    · cases h
    · obtain ⟨p, b, hp⟩ := sampleSend_frame c _ _
      rw [hp] at h
      unfold sendMessage at h
      -- eager, announced or sent on demand, and each with or without the next operation
      split_ifs at h <;> cases h <;> refine ⟨⟨rfl, rfl, rfl, rfl⟩, ?_⟩ <;>
        simp [codesExecMpiSendRc, Work.withSampling, Work.issueNext, Work.send, Work.setOpBf,
          Work.setBf, countSent, countSend, Work.setTallies, h15, h16]

theorem execEnd_undone (h : execEnd c w = .ok w') :
    SameOp w w' ∧ undoOp c w' .wkEnd =
    .ok { w.r with t := { w.r.t with isFinished := false } } := by
  unfold execEnd at h
  dsimp only at h
  split at h
  · cases h
    exact ⟨⟨rfl, rfl, rfl, rfl⟩, rfl⟩
  · split at h
    · cases h
    · cases h
      exact ⟨⟨rfl, rfl, rfl, rfl⟩, rfl⟩

/-- The reverse of a reduction for all ranks leaves it counted. -/
theorem execAllreduce_undone : SameOp w (execAllreduce c w) ∧ ∃ r',
    undoOp c (execAllreduce c w) .allreduce = .ok r' ∧ r'.t.numCols = w.r.t.numCols + 1 := by
  unfold execAllreduce
  dsimp only
  split_ifs
  · exact ⟨⟨rfl, rfl, rfl, rfl⟩, _, rfl, rfl⟩
  · refine ⟨⟨rfl, rfl, rfl, rfl⟩, _, rfl, ?_⟩
    dsimp only
    split_ifs <;> rfl

theorem execDelay_undone (nsecs : STime) (h : execOp c w (.delay nsecs) = .ok w') :
    SameOp w w' ∧ undoOp c w' (.delay nsecs) = .ok w.r := by
  cases h
  cases hdelay : c.disableDelay with
  | true =>
    refine ⟨⟨rfl, rfl, rfl, rfl⟩, ?_⟩
    simp [undoOp, hdelay, Work.setTallies, Work.issueNext, Work.send]
  | false =>
    refine ⟨⟨rfl, rfl, rfl, rfl⟩, ?_⟩
    simp [undoOp, hdelay, Work.setTallies, codesExecCompDelay, Work.send, Work.setOpBf, Work.setRc,
      NwMsg.setRc]

theorem execMark_undone (hd : w.r.directorEnabled = false) (tag : ℤ) :
    SameOp w (execMark c w tag) ∧ undoOp c (execMark c w tag) (.mark tag) = .ok w.r := by
  unfold execMark
  dsimp only
  rw [if_neg (by simpa [Work.setRc] using hd)]
  exact ⟨⟨rfl, rfl, rfl, rfl⟩, rfl⟩

/-- The operation works on the queues of the rank. -/
def WorkloadOp.usesQueues : WorkloadOp → Bool
  | .recv _ | .irecv _ | .wait _ | .waitall _ => true
  | _ => false

/-- **The condition**: no reduction for all ranks, and no second end of the trace. -/
def WorkloadOp.Undoable (op : WorkloadOp) (r : Rank) : Prop :=
  op ≠ .allreduce ∧ (op = .wkEnd → r.t.isFinished = false)

/-- The rank that the reverse of an operation gives back, up to the samples. -/
def restoredRank (r : Rank) : WorkloadOp → Rank → Prop
  | .wkEnd, r' => r' = { r with t := { r.t with isFinished := false } }
  | .allreduce, r' => r'.t.numCols = r.t.numCols + 1
  | _, r' => { r' with sampling := r.sampling } = r

/-- **An operation and its reverse.** -/
theorem execOp_undone (hop : w.op.usesQueues = false) (hobf : w.obf = .zero)
    (hd : w.r.directorEnabled = false) (h : execOp c w w.op = .ok w') :
    SameOp w w' ∧ ∃ r', undoOp c w' w.op = .ok r' ∧ restoredRank w.r w.op r' := by
  cases hw : w.op with
  | wkEnd =>
    rw [hw] at h
    obtain ⟨hsame, hundo⟩ := execEnd_undone h
    exact ⟨hsame, _, hundo, rfl⟩
  | send u | isend u =>
    rw [hw] at h
    obtain ⟨hsame, hr⟩ := codesExecMpiSend_undone hobf h
    exact ⟨hsame, _, rfl, hr⟩
  | recv u | irecv u | wait reqId | waitall reqIds =>
    rw [hw] at hop
    cases hop
  | delay nsecs =>
    rw [hw] at h
    obtain ⟨hsame, hundo⟩ := execDelay_undone nsecs h
    exact ⟨hsame, _, hundo, rfl⟩
  | allreduce =>
    rw [hw] at h
    cases h
    exact execAllreduce_undone
  | bcast | allgather | allgatherv | alltoall | alltoallv | reduce | col | waitsome | waitany =>
    rw [hw] at h
    cases h
    refine ⟨⟨rfl, rfl, rfl, rfl⟩, _, rfl, ?_⟩
    simp [restoredRank, execCol, execWaitsome, Work.setTallies, Work.issueNext, Work.send]
  | mark tag =>
    rw [hw] at h
    cases h
    obtain ⟨hsame, hundo⟩ := execMark_undone (c := c) hd tag
    exact ⟨hsame, _, hundo, rfl⟩
  | invalid n =>
    rw [hw] at h
    cases h
    exact ⟨⟨rfl, rfl, rfl, rfl⟩, _, rfl, rfl⟩

/-- What an operation gives back is the rank exactly under the condition. -/
theorem restoredRank_iff {r' : Rank} (h : restoredRank r op r') :
    { r' with sampling := r.sampling } = r ↔ op.Undoable r := by
  cases op with
  | wkEnd =>
    obtain rfl : r' = _ := h
    constructor
    · intro heq
      exact ⟨nofun, fun _ => (congrArg (fun r : Rank => r.t.isFinished) heq).symm⟩
    · rintro ⟨-, hfin⟩
      have ht : { r.t with isFinished := false } = r.t := by rw [← hfin rfl]
      rw [ht]
  | allreduce =>
    refine iff_of_false (fun heq => ?_) fun hu => hu.1 rfl
    have hcols := congrArg (fun r : Rank => r.t.numCols) heq
    have hne : r.t.numCols + 1 ≠ r.t.numCols := by simp
    exact hne (h.symm.trans hcols)
  | _ => exact iff_of_true h ⟨nofun, nofun⟩

theorem execMpiOp_undone (hd : r.directorEnabled = false) (hop : op.usesQueues = false)
    (h : execMpiOp c (Work.start r m) op = .ok w) : w.op = op ∧ w.r.trace = r.trace ∧
      ∃ r', execMpiOpRc c w = .ok r' ∧ restoredRank r op r' := by
  unfold execMpiOp at h
  dsimp only at h
  rw [if_neg (by simp [Work.start, Work.setOpBf, hd])] at h
  obtain ⟨hsame, r', hundo, hr⟩ := execOp_undone (by exact hop) (by exact rfl) (by exact hd) h
  exact ⟨hsame.op, hsame.trace, r', (execMpiOpRc_eq rfl hsame).trans hundo, hr⟩

/-! ### The trace -/

section Trace

variable {σ : Type*} {methods : List (Method σ WorkloadOp)} {wk wk₁ : Workloads σ WorkloadOp}

theorem lifoOf_of_next {id : ℕ} {p : ℤ × ℤ}
    (h : codesWorkloadGetNext methods WorkloadOp.opType id p wk = some (op, wk₁)) :
    ∃ lifo, lifoOf p wk₁.ranks = some lifo := by
  unfold codesWorkloadGetNext at h
  split at h
  · cases h
  · rename_i q hq
    have hsome : (lifoOf p wk.ranks).isSome := by rw [lifoOf, hq]; rfl
    split at h
    · rename_i rest _
      cases h
      exact ⟨rest, by rw [lifoOf_setLifo hsome, if_pos rfl]⟩
    · -- the generator is asked, and the queues stay
      obtain ⟨m, -, h⟩ := Option.bind_eq_some_iff.1 h
      obtain ⟨-, h⟩ := Option.ite_none_left_eq_some.1 h
      cases h
      exact Option.isSome_iff_exists.1 hsome

theorem next_again {id : ℕ} {p : ℤ × ℤ}
    (h : codesWorkloadGetNext methods WorkloadOp.opType id p wk = some (op, wk₁)) :
    ∃ wk₂, codesWorkloadGetNextRc p op wk₁ = some wk₂ ∧
      ∃ wk₃, codesWorkloadGetNext methods WorkloadOp.opType id p wk₂ = some (op, wk₃) := by
  obtain ⟨lifo, hlifo⟩ := lifoOf_of_next h
  obtain ⟨q, hq, -⟩ := findQueue_of_lifoOf hlifo
  have hback : lifoOf p (setLifo p (op :: q.lifo) wk₁.ranks) = some (op :: q.lifo) := by
    rw [lifoOf_setLifo (by rw [hlifo]; rfl), if_pos rfl]
  obtain ⟨q', hq', hlifo'⟩ := findQueue_of_lifoOf hback
  refine ⟨{ wk₁ with ranks := setLifo p (op :: q.lifo) wk₁.ranks }, ?_,
    { wk₁ with ranks := setLifo p q.lifo (setLifo p (op :: q.lifo) wk₁.ranks) }, ?_⟩
  · rw [codesWorkloadGetNextRc, hq]
    rfl
  · unfold codesWorkloadGetNext
    dsimp only
    rw [hq']
    dsimp only
    rw [hlifo']

/-- An operation of the trace and its reverse leave the rank as it was, up to the samples, and the
trace hands out the operation again. -/
def TraceUndone (methods : List (Method σ WorkloadOp)) (c : RankCtx) (r : Rank)
    (op : WorkloadOp) (wk : Workloads σ WorkloadOp) (w : Work) : Prop :=
  ∃ wk' r', getNextMpiOperationRc c wk w = .ok (wk', r') ∧ { r' with sampling := r.sampling } = r ∧
    ∃ wk'', codesWorkloadGetNext methods WorkloadOp.opType r.wrkldId r.trace wk' = some (op, wk'')

/-- **Rollback of the trace.**  Without a director, every operation that does not work on the queues
is undone, but for reductions for all ranks, which stay counted, and for a second end of the
trace. -/
theorem trace_undone_iff (methods : List (Method σ WorkloadOp)) (c : RankCtx) (r : Rank) (m : NwMsg)
    (wk wk₁ wk₂ : Workloads σ WorkloadOp) (op : WorkloadOp) (w : Work)
    (hd : r.directorEnabled = false)
    (hnext : codesWorkloadGetNext methods WorkloadOp.opType r.wrkldId r.trace wk = some (op, wk₁))
    (hop : op.usesQueues = false)
    (h : getNextMpiOperation methods c wk (Work.start r m) = .ok (wk₂, w)) :
    TraceUndone methods c r op wk₂ w ↔ op.Undoable r := by
  unfold getNextMpiOperation at h
  rw [show (Work.start r m).r = r from rfl, hnext] at h
  obtain ⟨w', hw', heq⟩ := map_eq_ok h
  obtain ⟨rfl, rfl⟩ := Prod.mk.inj heq
  obtain ⟨hop', htrace, r', hrc, hr⟩ := execMpiOp_undone hd hop hw'
  obtain ⟨wk₃, hback, hagain⟩ := next_again hnext
  have hundo : getNextMpiOperationRc c wk₂ w = .ok (wk₃, r') := by
    rw [getNextMpiOperationRc, htrace, hop', hback]
    dsimp only
    rw [hrc]
    rfl
  rw [← restoredRank_iff hr]
  constructor
  · rintro ⟨wk', r'', hundo', hr'', -⟩
    obtain ⟨rfl, rfl⟩ := Prod.mk.inj (Except.ok.inj (hundo.symm.trans hundo'))
    exact hr''
  · intro hr'
    exact ⟨wk₃, r', hundo, hr', hagain⟩

/-- A trace that repeats an operation. -/
def repeated (op : WorkloadOp) : Method Unit WorkloadOp where
  methodName := "repeated"
  load _ _ _ := some ()
  getNext _ _ _ := (op, ())

/-- The workload of rank 0, loaded. -/
def loadedTrace : Workloads Unit WorkloadOp := ⟨[⟨0, 0, []⟩], fun _ => (), []⟩

/-- A node with one rank. -/
def oneRank : RankCtx where
  conf := [⟨"G", 1, [⟨"nw-lp", none, 1⟩]⟩]
  eagerThreshold := 8192
  enableMsgTracking := false
  prioritizeCollectives := false
  globalIdOfJobRank := none
  now := 5
  disableDelay := false
  computeTimeSpeedup := 1
  enableSampling := false
  samplingInterval := 5000000
  copySamples := fun _ samples => samples

/-- An event without contents. -/
def blankMsg : NwMsg := ⟨.other, 0, 0, 0, 0, 0, 0, 0, 0, 0, 0, 0, ⟨0, 0, 0, 0, 0⟩⟩

theorem trace_undone_iff_bcast : ∃ wk₂ w,
    getNextMpiOperation [repeated .bcast] oneRank loadedTrace
      (Work.start (.init oneRank 0 0 0 0 0) blankMsg) = .ok (wk₂, w) ∧
    (TraceUndone [repeated .bcast] oneRank (.init oneRank 0 0 0 0 0) .bcast wk₂ w ↔
      WorkloadOp.bcast.Undoable (.init oneRank 0 0 0 0 0)) :=
  ⟨_, _, rfl, trace_undone_iff _ oneRank (.init oneRank 0 0 0 0 0) blankMsg loadedTrace _ _ .bcast _
    rfl rfl rfl rfl⟩

/-- A reduction for all ranks is rolled back, and stays counted. -/
theorem allreduce_stays : ∃ wk₂ w,
    getNextMpiOperation [repeated .allreduce] oneRank loadedTrace
      (Work.start (.init oneRank 0 0 0 0 0) blankMsg) = .ok (wk₂, w) ∧
    (getNextMpiOperationRc oneRank wk₂ w).map (fun x => x.2.t.numCols) = .ok 1 ∧
    ¬TraceUndone [repeated .allreduce] oneRank (.init oneRank 0 0 0 0 0) .allreduce wk₂ w := by
  refine ⟨_, _, rfl, rfl, ?_⟩
  rintro ⟨wk', r', hrc, hr, -⟩
  have hcols := congrArg (fun r : Rank => r.t.numCols) hr
  cases hrc
  cases hcols

end Trace

end CodesSim.Replay
