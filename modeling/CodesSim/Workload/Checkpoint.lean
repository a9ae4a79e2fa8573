import CodesSim.Base.Event
import Mathlib.Tactic.Linarith

/-!
# The checkpoint workload

The workload of `codes-checkpoint-wrkld.c` computes, writes a checkpoint, and so on: for each
checkpoint a rank waits, opens a file, writes its part in pieces of at most 16 MiB and closes the
file.

* `ops_load` : these are the operations, and nothing follows them, unless the number of checkpoints
  is the largest `int`: the count then wraps around and the workload does not end.
* `rewound_iff` : the reverse function leaves the status as it is, and so takes a call back only if
  the call has not changed it: behind the last operation, and for a single write that is followed by
  another.

A rank has one state; the table of the states is left out.  `long long` is unbounded, and so is the
count of checkpoints where `getNextRc2` takes one off.
-/

namespace CodesSim.Workload

namespace Checkpoint

open CodesMapping

/-- `DEFAULT_WR_BUF_SIZE`. -/
def defaultWrBufSize : ℤ := 16 * 1024 * 1024

/-- `checkpoint_status`. -/
inductive Status where
  | compute
  | openFile
  | write
  | closeFile
  | inactive
  deriving DecidableEq

/-- The part of `checkpoint_state` that is set when the workload is loaded. -/
structure Param where
  checkpointInterval : ℚ
  ioPerCheckpoint : ℤ
  totalCheckpoints : ℤ

/-- `checkpoint_state`. -/
structure State where
  status : Status
  (curCheckpoint curCheckpointSz savedCurCheckpointSz savedPrevCheckpointSz : ℤ)

/-- The operations of the workload (`codes_workload_op`). -/
inductive Op where
  | wkDelay (seconds : ℚ)
  | wkOpen (fileId : ℤ) (createFlag : Bool)
  | wkWrite (fileId offset size : ℤ)
  | wkClose (fileId : ℤ)
  | wkEnd

/-- `checkpoint_workload_load`; the sizes are not set. -/
def load (sz savedCur savedPrev : ℤ) : State := ⟨.compute, 1, sz, savedCur, savedPrev⟩

variable (p : Param)

/-- The size of the next write. -/
def State.writeSize (s : State) : ℤ :=
  let remaining := p.ioPerCheckpoint - s.curCheckpointSz
  if remaining ≥ defaultWrBufSize then defaultWrBufSize else remaining

/-- `checkpoint_workload_get_next`. -/
def getNext (s : State) : Op × State :=
  match s.status with
  | .compute => (.wkDelay p.checkpointInterval, { s with status := .openFile })
  | .openFile => (.wkOpen s.curCheckpoint true,
      { s with savedPrevCheckpointSz := s.curCheckpointSz, curCheckpointSz := 0, status := .write })
  | .write => (.wkWrite s.curCheckpoint s.curCheckpointSz (s.writeSize p),
      { s with
        savedCurCheckpointSz := s.curCheckpointSz
        curCheckpointSz := s.curCheckpointSz + s.writeSize p
        status := if s.curCheckpointSz + s.writeSize p = p.ioPerCheckpoint then
          .closeFile else .write })
  | .closeFile => (.wkClose s.curCheckpoint,
      { s with
        curCheckpoint := wrapInt (s.curCheckpoint + 1)
        status := if wrapInt (s.curCheckpoint + 1) > p.totalCheckpoints then .inactive
          else .compute })
  | .inactive => (.wkEnd, s)

/-- `checkpoint_workload_get_next_rc2`. -/
def getNextRc2 (s : State) : State :=
  match s.status with
  | .compute => { s with status := .compute }
  | .openFile => { s with status := .openFile, curCheckpointSz := s.savedPrevCheckpointSz }
  | .write => { s with status := .write, curCheckpointSz := s.savedCurCheckpointSz }
  | .closeFile => { s with curCheckpoint := s.curCheckpoint - 1, status := .closeFile }
  | .inactive => { s with status := .inactive }

/-- The state after some calls. -/
def after (n : ℕ) (s : State) : State := (fun s => (getNext p s).2)^[n] s

/-- The operations of some calls. -/
def ops (n : ℕ) (s : State) : List Op := (List.range n).map fun k => (getNext p (after p k s)).1

/-! ### The operations -/

variable {p}

theorem after_add (m n : ℕ) (s : State) : after p (m + n) s = after p n (after p m s) := by
  rw [after, Nat.add_comm, Function.iterate_add_apply]
  rfl

theorem ops_add (m n : ℕ) (s : State) : ops p (m + n) s = ops p m s ++ ops p n (after p m s) := by
  rw [ops, List.range_add, List.map_append, List.map_map]
  refine congrArg _ (List.map_congr_left fun k _ => ?_)
  rw [Function.comp_apply, after_add]

theorem ops_one (s : State) : ops p 1 s = [(getNext p s).1] := rfl

/-- The writes of some sizes to a file, from an offset on. -/
def writes (fileId : ℤ) : ℤ → List ℤ → List Op
  | _, [] => []
  | offset, size :: sizes => .wkWrite fileId offset size :: writes fileId (offset + size) sizes

/-- The operations of a checkpoint. -/
def round (interval : ℚ) (sizes : List ℤ) (k : ℤ) : List Op :=
  .wkDelay interval :: .wkOpen k true :: writes k 0 sizes ++ [.wkClose k]

/-- The sizes of writes that make up a number of bytes. -/
def Sizes (total : ℤ) (sizes : List ℤ) : Prop :=
  (∀ size ∈ sizes, 0 < size ∧ size ≤ defaultWrBufSize) ∧ sizes.sum = total

variable {s : State}

theorem getNext_write (hs : s.status = .write) : getNext p s =
    (.wkWrite s.curCheckpoint s.curCheckpointSz (s.writeSize p),
      { s with
        savedCurCheckpointSz := s.curCheckpointSz
        curCheckpointSz := s.curCheckpointSz + s.writeSize p
        status := if s.curCheckpointSz + s.writeSize p = p.ioPerCheckpoint then .closeFile
          else .write }) := by
  rw [getNext, hs]

/-- **The writes** that are left make up what is left of the checkpoint. -/
theorem ops_writes (remaining : ℕ) (hpos : 0 < remaining) :
    ∃ sizes, Sizes remaining sizes ∧ ∀ s : State, s.status = .write →
      s.curCheckpointSz = p.ioPerCheckpoint - remaining →
      ops p sizes.length s = writes s.curCheckpoint s.curCheckpointSz sizes ∧
        (after p sizes.length s).status = .closeFile ∧
        (after p sizes.length s).curCheckpoint = s.curCheckpoint := by
  induction remaining using Nat.strong_induction_on with
  | _ remaining ih =>
    by_cases hlast : (remaining : ℤ) ≤ defaultWrBufSize
    · refine ⟨[(remaining : ℤ)], ⟨by simpa using ⟨hpos, hlast⟩, by simp⟩, fun s hs hsz => ?_⟩
      have hsize : s.writeSize p = remaining := by
        simp only [State.writeSize]
        split_ifs <;> omega
      have hnext : after p 1 s = (getNext p s).2 := rfl
      rw [List.length_singleton, ops_one, hnext, getNext_write hs, hsize,
        if_pos (by omega : s.curCheckpointSz + remaining = p.ioPerCheckpoint)]
      exact ⟨rfl, rfl, rfl⟩
    · have hbuf : defaultWrBufSize = (16777216 : ℕ) := rfl
      obtain ⟨sizes, ⟨hsizes, hsum⟩, hrun⟩ := ih (remaining - 16777216) (by omega) (by omega)
      refine ⟨defaultWrBufSize :: sizes, ⟨?_, ?_⟩, fun s hs hsz => ?_⟩
      · exact List.forall_mem_cons.2 ⟨by omega, hsizes⟩
      · rw [List.sum_cons, hsum]
        omega
      · have hsize : s.writeSize p = defaultWrBufSize := by
          simp only [State.writeSize]
          split_ifs <;> omega
        have hnext : after p 1 s = (getNext p s).2 := rfl
        obtain ⟨hops, hstatus, hcur⟩ := hrun (getNext p s).2
          (by rw [getNext_write hs, if_neg (by rw [hsize]; omega)])
          (by rw [getNext_write hs, hsize]; dsimp only; omega)
        rw [List.length_cons, Nat.add_comm, ops_add, after_add, hnext, hops, ops_one, hstatus, hcur,
          getNext_write hs, hsize]
        exact ⟨rfl, rfl, rfl⟩

/-- **A checkpoint.** -/
theorem ops_round (hio : 1 ≤ p.ioPerCheckpoint) :
    ∃ sizes, Sizes p.ioPerCheckpoint sizes ∧ ∀ s : State, s.status = .compute →
      ops p (2 + (sizes.length + 1)) s = round p.checkpointInterval sizes s.curCheckpoint ∧
        (after p (2 + (sizes.length + 1)) s).status =
          (if wrapInt (s.curCheckpoint + 1) > p.totalCheckpoints then .inactive else .compute) ∧
        (after p (2 + (sizes.length + 1)) s).curCheckpoint = wrapInt (s.curCheckpoint + 1) := by
  obtain ⟨sizes, hsizes, hrun⟩ := ops_writes (p := p) p.ioPerCheckpoint.toNat (by omega)
  rw [Int.toNat_of_nonneg (by omega)] at hsizes hrun
  refine ⟨sizes, hsizes, fun s hs => ?_⟩
  have hopened : after p 2 s = { s with
      savedPrevCheckpointSz := s.curCheckpointSz, curCheckpointSz := 0, status := .write } := by
    simp [after, getNext, hs]
  have hfirst : ops p 2 s = [.wkDelay p.checkpointInterval, .wkOpen s.curCheckpoint true] := by
    simp [ops, List.range_succ, after, getNext, hs]
  obtain ⟨hwrites, hstatus, hcur⟩ := hrun (after p 2 s) (by rw [hopened]) (by rw [hopened]; simp)
  have hclose (t : State) (ht : t.status = .closeFile) :
      ops p 1 t = [.wkClose t.curCheckpoint] ∧ (after p 1 t).status =
        (if wrapInt (t.curCheckpoint + 1) > p.totalCheckpoints then .inactive else .compute) ∧
      (after p 1 t).curCheckpoint = wrapInt (t.curCheckpoint + 1) := by
    simp [ops, after, getNext, ht]
  obtain ⟨hop, hlast, hnext⟩ := hclose _ hstatus
  rw [hcur] at hop hlast hnext
  rw [ops_add, ops_add, after_add, after_add, hop, hlast, hnext, hwrites, hfirst, hopened]
  exact ⟨rfl, rfl, rfl⟩

theorem getNext_inactive (hs : s.status = .inactive) : getNext p s = (.wkEnd, s) := by
  rw [getNext, hs]

theorem after_inactive (hs : s.status = .inactive) (n : ℕ) : after p n s = s :=
  Function.iterate_fixed (by rw [getNext_inactive hs]) n

theorem ops_inactive (hs : s.status = .inactive) (n : ℕ) : ops p n s = List.replicate n .wkEnd := by
  refine List.eq_replicate_iff.2 ⟨by simp [ops], fun o ho => ?_⟩
  obtain ⟨k, -, rfl⟩ := List.mem_map.1 ho
  rw [after_inactive hs, getNext_inactive hs]

/-- **The first checkpoints** up to the last one. -/
theorem ops_rounds {len : ℕ} {sizes : List ℤ} (hmax : p.totalCheckpoints < 2 ^ 31)
    (hround : ∀ s : State, s.status = .compute →
      ops p len s = round p.checkpointInterval sizes s.curCheckpoint ∧
        (after p len s).status =
          (if wrapInt (s.curCheckpoint + 1) > p.totalCheckpoints then .inactive else .compute) ∧
        (after p len s).curCheckpoint = wrapInt (s.curCheckpoint + 1))
    (done : ℕ) (s : State) (hs : s.status = .compute) (hpos : 0 ≤ s.curCheckpoint)
    (hdone : s.curCheckpoint + done ≤ p.totalCheckpoints) :
    ops p (done * len) s =
        (List.range done).flatMap
          (fun k : ℕ => round p.checkpointInterval sizes (s.curCheckpoint + k)) ∧
      (after p (done * len) s).status = .compute ∧
      (after p (done * len) s).curCheckpoint = s.curCheckpoint + done := by
  induction done with
  | zero => simp [ops, after, hs]
  | succ done ih =>
    obtain ⟨hops, hstatus, hcur⟩ := ih (by omega)
    obtain ⟨hop, hlast, hnext⟩ := hround _ hstatus
    have hsplit : (done + 1) * len = done * len + len := Nat.succ_mul done len
    have hwrap : wrapInt (s.curCheckpoint + done + 1) = s.curCheckpoint + done + 1 :=
      wrapInt_of_range (by omega) (by omega)
    rw [hcur] at hop hlast hnext
    rw [hwrap] at hlast hnext
    rw [hsplit, ops_add, after_add, hop, hlast, hnext, hops, if_neg (by omega), List.range_succ,
      List.flatMap_append]
    refine ⟨by simp, rfl, by push_cast; ring⟩

/-- The operations that the workload is for: its checkpoints, one after the other, and no more. -/
def Written (p : Param) : Prop :=
  ∃ sizes, Sizes p.ioPerCheckpoint sizes ∧ ∀ sz savedCur savedPrev n,
    ops p (p.totalCheckpoints.toNat * (sizes.length + 3) + n) (load sz savedCur savedPrev) =
      (List.range p.totalCheckpoints.toNat).flatMap
          (fun k : ℕ => round p.checkpointInterval sizes (k + 1)) ++
        List.replicate n .wkEnd

/-- **The operations of the workload** are its checkpoints, one after the other. -/
theorem ops_load (hio : 1 ≤ p.ioPerCheckpoint) (htotal : 1 ≤ p.totalCheckpoints)
    (hmax : p.totalCheckpoints < 2 ^ 31 - 1) : Written p := by
  obtain ⟨sizes, hsizes, hround⟩ := ops_round hio
  refine ⟨sizes, hsizes, fun sz savedCur savedPrev n => ?_⟩
  obtain ⟨done, hdone⟩ := Nat.exists_eq_add_of_le' (by omega : 1 ≤ p.totalCheckpoints.toNat)
  have hload : (load sz savedCur savedPrev).curCheckpoint = 1 := rfl
  obtain ⟨hops, hstatus, hcur⟩ := ops_rounds (by omega) hround done (load sz savedCur savedPrev) rfl
    (by omega) (by omega)
  obtain ⟨hop, hlast, -⟩ := hround _ hstatus
  rw [hcur, hload] at hop hlast
  -- after the last checkpoint the count is beyond the number of checkpoints
  rw [wrapInt_of_range (by omega) (by omega), if_pos (by omega), ← after_add] at hlast
  have hlen : p.totalCheckpoints.toNat * (sizes.length + 3) =
      done * (2 + (sizes.length + 1)) + (2 + (sizes.length + 1)) := by rw [hdone]; ring
  rw [hlen, ops_add, ops_inactive hlast, ops_add, hop, hops, hdone, List.range_succ,
    List.flatMap_append, List.flatMap_singleton, hload]
  simp only [add_comm (1 : ℤ)]

/-- No count is larger than the largest `int`. -/
theorem getNext_active (hmax : 2 ^ 31 - 1 ≤ p.totalCheckpoints) (hs : s.status ≠ .inactive) :
    (getNext p s).1 ≠ .wkEnd ∧ (getNext p s).2.status ≠ .inactive := by
  have hwrap := (wrapInt_bounds (s.curCheckpoint + 1)).2
  cases h : s.status with
  | compute => simp [getNext, h]
  | openFile => simp [getNext, h]
  | write =>
    rw [getNext_write h]
    refine ⟨by simp, ?_⟩
    dsimp only
    split_ifs <;> simp
  | closeFile =>
    simp only [getNext, h]
    rw [if_neg (by omega)]
    simp
  | inactive => exact absurd h hs

/-- **The workload writes its checkpoints and ends** iff their number is not the largest `int`. -/
theorem written_iff (hio : 1 ≤ p.ioPerCheckpoint) (htotal : 1 ≤ p.totalCheckpoints) :
    Written p ↔ p.totalCheckpoints < 2 ^ 31 - 1 := by
  refine ⟨?_, ops_load hio htotal⟩
  rintro ⟨sizes, -, hrun⟩
  by_contra hmax
  have hactive (k : ℕ) : (after p k (load 0 0 0)).status ≠ .inactive := by
    induction k with
    | zero => exact Status.noConfusion
    | succ k ih =>
      rw [after, Function.iterate_succ_apply']
      exact (getNext_active (by omega) ih).2
  have hend : Op.wkEnd ∈ ops p (p.totalCheckpoints.toNat * (sizes.length + 3) + 1)
    (load 0 0 0) := by
    rw [hrun]
    exact List.mem_append_right _ List.mem_cons_self
  obtain ⟨k, -, hk⟩ := List.mem_map.1 hend
  exact (getNext_active (by omega) (hactive k)).1 hk

/-! ### Taking calls back -/

/-- A state is one that calls lead to. -/
def Reached (p : Param) (s : State) : Prop :=
  ∃ sz savedCur savedPrev n, s = after p n (load sz savedCur savedPrev)

/-- While a checkpoint is being written, something is left to write, and until the workload ends the
count is that of a checkpoint. -/
structure Writing (p : Param) (s : State) : Prop where
  size : s.status = .write → 0 ≤ s.curCheckpointSz ∧ s.curCheckpointSz < p.ioPerCheckpoint
  count : s.status ≠ .inactive → 1 ≤ s.curCheckpoint ∧ s.curCheckpoint ≤ p.totalCheckpoints

/-- How far a state is in the workload. -/
def State.progress (p : Param) (s : State) : ℤ :=
  s.curCheckpoint * (p.ioPerCheckpoint + 4) +
    match s.status with
    | .compute | .inactive => 0
    | .openFile => 1
    | .write => 2 + s.curCheckpointSz
    | .closeFile => p.ioPerCheckpoint + 2

theorem writeSize_pos (hs : s.curCheckpointSz < p.ioPerCheckpoint) :
    0 < s.writeSize p ∧ s.curCheckpointSz + s.writeSize p ≤ p.ioPerCheckpoint := by
  simp only [State.writeSize, defaultWrBufSize]
  split_ifs <;> omega

theorem Writing.wrapInt_eq (hmax : p.totalCheckpoints < 2 ^ 31 - 1) (hw : Writing p s)
    (hs : s.status = .closeFile) : wrapInt (s.curCheckpoint + 1) = s.curCheckpoint + 1 := by
  obtain ⟨hpos, hle⟩ := hw.count (by rw [hs]; exact Status.noConfusion)
  exact wrapInt_of_range (by omega) (by omega)

/-- **A call gets further.** -/
theorem getNext_progress (hio : 1 ≤ p.ioPerCheckpoint) (hmax : p.totalCheckpoints < 2 ^ 31 - 1)
    (hw : Writing p s) :
    Writing p (getNext p s).2 ∧
      (s.status ≠ .inactive → s.progress p < (getNext p s).2.progress p) := by
  cases hs : s.status with
  | compute =>
    have hcount := hw.count (by simp [hs])
    simp only [getNext, State.progress, hs]
    exact ⟨⟨by simp, fun _ => hcount⟩, fun _ => by omega⟩
  | openFile =>
    have hcount := hw.count (by simp [hs])
    simp only [getNext, State.progress, hs]
    exact ⟨⟨fun _ => by dsimp only; omega, fun _ => hcount⟩, fun _ => by omega⟩
  | write =>
    have hcount := hw.count (by simp [hs])
    obtain ⟨hsz, hlt⟩ := hw.size hs
    obtain ⟨hpos, hle⟩ := writeSize_pos hlt
    simp only [getNext, State.progress, hs]
    split_ifs with hlast
    · exact ⟨⟨by simp, fun _ => hcount⟩, fun _ => by dsimp only; omega⟩
    · exact ⟨⟨fun _ => by dsimp only; omega, fun _ => hcount⟩, fun _ => by dsimp only; omega⟩
  | closeFile =>
    have hcount := hw.count (by simp [hs])
    have hwrap := hw.wrapInt_eq hmax hs
    simp only [getNext, State.progress, hs, hwrap]
    split_ifs
    · exact ⟨⟨by simp, by simp⟩, fun _ => by dsimp only; linarith⟩
    · exact ⟨⟨by simp, fun _ => by dsimp only; omega⟩, fun _ => by dsimp only; linarith⟩
  | inactive =>
    rw [getNext_inactive hs]
    exact ⟨hw, fun h => absurd rfl h⟩

theorem after_succ (n : ℕ) (s : State) : after p (n + 1) s = (getNext p (after p n s)).2 :=
  Function.iterate_succ_apply' _ n s

section

variable (hio : 1 ≤ p.ioPerCheckpoint)
include hio

theorem after_writing (hmax : p.totalCheckpoints < 2 ^ 31 - 1)
    (hw : Writing p s) (n : ℕ) : Writing p (after p n s) := by
  induction n with
  | zero => exact hw
  | succ n ih =>
    rw [after_succ]
    exact (getNext_progress hio hmax ih).1

theorem Reached.writing (htotal : 1 ≤ p.totalCheckpoints)
    (hmax : p.totalCheckpoints < 2 ^ 31 - 1) (h : Reached p s) : Writing p s := by
  obtain ⟨sz, savedCur, savedPrev, n, rfl⟩ := h
  have hload : Writing p (load sz savedCur savedPrev) :=
    ⟨Status.noConfusion, fun _ => ⟨le_rfl, htotal⟩⟩
  exact after_writing hio hmax hload n

/-- A state that some calls lead to is further, unless the workload has ended. -/
theorem after_progress (hmax : p.totalCheckpoints < 2 ^ 31 - 1) (hw : Writing p s) (n : ℕ)
    (hn : (after p n s).status ≠ .inactive) : s.progress p + n ≤ (after p n s).progress p := by
  induction n with
  | zero => exact le_of_eq (by simp [after])
  | succ n ih =>
    rw [after_succ] at hn ⊢
    have hactive : (after p n s).status ≠ .inactive := fun h =>
      hn (by rw [getNext_inactive h, h])
    have := (getNext_progress hio hmax (after_writing hio hmax hw n)).2 hactive
    have := ih hactive
    omega

theorem after_curCheckpoint_le (hmax : p.totalCheckpoints < 2 ^ 31 - 1) (hw : Writing p s) (n : ℕ) :
    (after p n s).curCheckpoint ≤ s.curCheckpoint + n := by
  induction n with
  | zero => exact le_of_eq (by simp [after])
  | succ n ih =>
    rw [after_succ]
    have hw' := after_writing hio hmax hw n
    have hstep : (getNext p (after p n s)).2.curCheckpoint ≤ (after p n s).curCheckpoint + 1 := by
      cases ht : (after p n s).status with
      | closeFile => simp [getNext, ht, hw'.wrapInt_eq hmax ht]
      | _ => simp [getNext, ht]
    omega

end

theorem getNextRc2_iterate (n : ℕ) (s : State) : (getNextRc2^[n + 1] s) =
    match s.status with
    | .compute | .inactive => s
    | .openFile => { s with curCheckpointSz := s.savedPrevCheckpointSz }
    | .write => { s with curCheckpointSz := s.savedCurCheckpointSz }
    | .closeFile => { s with curCheckpoint := s.curCheckpoint - (n + 1) } := by
  induction n with
  | zero =>
    obtain ⟨status, cur, sz, savedCur, savedPrev⟩ := s
    cases status <;> simp [getNextRc2]
  | succ n ih =>
    rw [Function.iterate_succ_apply', ih]
    obtain ⟨status, cur, sz, savedCur, savedPrev⟩ := s
    cases status <;> simp [getNextRc2]
    ring

/-- A state is back where it was: what the next operations are made of is the same. -/
def Rewound (s t : State) : Prop :=
  t.status = s.status ∧ t.curCheckpoint = s.curCheckpoint ∧ t.curCheckpointSz = s.curCheckpointSz

theorem Rewound.getNext {t : State} (h : Rewound s t) :
    (getNext p t).1 = (getNext p s).1 ∧ Rewound (getNext p s).2 (getNext p t).2 := by
  obtain ⟨hstatus, hcur, hsz⟩ := h
  cases hs : s.status <;>
    simp [Checkpoint.getNext, Rewound, State.writeSize, hstatus, hcur, hsz, hs]

theorem Rewound.ops {t : State} (h : Rewound s t) (n : ℕ) : ops p n t = ops p n s := by
  have hafter (k : ℕ) : Rewound (after p k s) (after p k t) := by
    induction k with
    | zero => exact h
    | succ k ih =>
      rw [after_succ, after_succ]
      exact ih.getNext.2
  exact List.map_congr_left fun k _ => (hafter k).getNext.1

/-- The calls of a run of writes leave the offset before the last one behind. -/
theorem savedCur_of_write (hio : 1 ≤ p.ioPerCheckpoint) (hmax : p.totalCheckpoints < 2 ^ 31 - 1)
    (hw : Writing p s) (hs : s.status = .write) {n : ℕ} (hn : 1 ≤ n)
    (ht : (after p (n + 1) s).status = .write)
    (hcur : (after p (n + 1) s).curCheckpoint = s.curCheckpoint) :
    s.curCheckpointSz < (after p (n + 1) s).savedCurCheckpointSz := by
  rw [after_succ] at ht hcur ⊢
  have hactive : (after p n s).status ≠ .inactive := fun h => by
    rw [getNext_inactive h, h] at ht
    cases ht
  have hfurther := after_progress hio hmax hw n hactive
  obtain ⟨hsz, -⟩ := hw.size hs
  cases hu : (after p n s).status with
  | compute => simp [getNext, hu] at ht
  | openFile =>
    -- the file is opened once for each checkpoint, before it is written
    have hsame : (after p n s).curCheckpoint = s.curCheckpoint := by
      simpa [getNext, hu] using hcur
    simp only [State.progress, hs, hu, hsame] at hfurther
    omega
  | write =>
    have hsame : (after p n s).curCheckpoint = s.curCheckpoint := by
      simpa [getNext, hu] using hcur
    simp only [State.progress, hs, hu, hsame] at hfurther
    rw [getNext_write hu]
    dsimp only
    omega
  | closeFile =>
    simp only [getNext, hu] at ht
    split_ifs at ht
  | inactive => exact absurd hu hactive

/-- **Which calls are taken back**: the ones behind the end, and a write that another one
follows. -/
theorem rewound_iff (hio : 1 ≤ p.ioPerCheckpoint) (hmax : p.totalCheckpoints < 2 ^ 31 - 1)
    (hw : Writing p s) {n : ℕ} (hn : 1 ≤ n) : Rewound s (getNextRc2^[n] (after p n s)) ↔
      s.status = .inactive ∨
        n = 1 ∧ s.status = .write ∧ defaultWrBufSize < p.ioPerCheckpoint - s.curCheckpointSz := by
  obtain ⟨n, rfl⟩ := Nat.exists_eq_add_of_le' hn
  rw [getNextRc2_iterate]
  constructor
  · intro h
    by_contra hnot
    rw [not_or] at hnot
    obtain ⟨hactive, hnot⟩ := hnot
    have hstatus : (after p (n + 1) s).status = s.status := by
      have hst := h.1
      cases ht : (after p (n + 1) s).status <;> simpa [ht] using hst
    have hfurther := after_progress hio hmax hw (n + 1) (by rwa [hstatus])
    cases hs : s.status with
    | inactive => exact hactive hs
    | compute =>
      have hcur : (after p (n + 1) s).curCheckpoint = s.curCheckpoint := by
        simpa [hstatus, hs] using h.2.1
      simp only [State.progress, hstatus, hs, hcur] at hfurther
      omega
    | openFile =>
      have hcur : (after p (n + 1) s).curCheckpoint = s.curCheckpoint := by
        simpa [hstatus, hs] using h.2.1
      simp only [State.progress, hstatus, hs, hcur] at hfurther
      omega
    | write =>
      have hcur : (after p (n + 1) s).curCheckpoint = s.curCheckpoint := by
        simpa [hstatus, hs] using h.2.1
      have hsz : (after p (n + 1) s).savedCurCheckpointSz = s.curCheckpointSz := by
        simpa [hstatus, hs] using h.2.2
      rcases Nat.eq_zero_or_pos n with rfl | hpos
      · -- a single write, which was the last one of the checkpoint
        refine hnot ⟨rfl, hs, ?_⟩
        have hlast : (getNext p s).2.status = .write := hstatus.trans hs
        rw [getNext_write hs] at hlast
        dsimp only at hlast
        split_ifs at hlast with hend
        obtain ⟨-, hlt⟩ := hw.size hs
        by_contra hle
        apply hend
        simp only [State.writeSize]
        split_ifs <;> omega
      · have := savedCur_of_write hio hmax hw hs hpos (hstatus.trans hs) hcur
        omega
    | closeFile =>
      have hcur : (after p (n + 1) s).curCheckpoint - (n + 1) = s.curCheckpoint := by
        simpa [hstatus, hs] using h.2.1
      have hfirst : after p (n + 1) s = after p n (getNext p s).2 := rfl
      -- the first call closes the file, and the second one does not
      rcases Nat.eq_zero_or_pos n with rfl | hpos
      · have hend : (getNext p s).2.status = .closeFile := hstatus.trans hs
        simp only [getNext, hs] at hend
        split_ifs at hend
      · obtain ⟨n, rfl⟩ := Nat.exists_eq_add_of_le' hpos
        have hsecond : after p (n + 1) (getNext p s).2 = after p n (getNext p (getNext p s).2).2 :=
          rfl
        have hw' := (getNext_progress hio hmax (getNext_progress hio hmax hw).1).1
        have hle := after_curCheckpoint_le hio hmax hw' n
        have hclosed : (getNext p (getNext p s).2).2.curCheckpoint = s.curCheckpoint + 1 := by
          simp only [getNext, hs, hw.wrapInt_eq hmax hs]
          split_ifs with hend hrest <;> rfl
        rw [hfirst, hsecond] at hcur
        push_cast at hcur
        omega
  · rintro (hs | ⟨hone, hs, hrest⟩)
    · rw [after_inactive hs, hs]
      exact ⟨rfl, rfl, rfl⟩
    · obtain rfl : n = 0 := by omega
      have hsize : s.writeSize p = defaultWrBufSize := if_pos hrest.le
      have hafter : after p (0 + 1) s = { s with
          savedCurCheckpointSz := s.curCheckpointSz
          curCheckpointSz := s.curCheckpointSz + defaultWrBufSize } := by
        change (getNext p s).2 = _
        rw [getNext_write hs, hsize, if_neg (by omega), ← hs]
      rw [hafter]
      simp [Rewound, hs]

/-! ### The workload -/

/-- Calls are taken back: the state is what it was, and the calls give the same operations again. -/
def TakenBack (p : Param) (s : State) (n : ℕ) : Prop :=
  Rewound s (getNextRc2^[n] (after p n s)) ∧ ops p n (getNextRc2^[n] (after p n s)) = ops p n s

/-- **The operations of the workload are its checkpoints** exactly if their number is not the
largest `int`; and then some calls are taken back exactly if the workload has ended, or for a single
write that is not the last one of its checkpoint. -/
theorem checkpoint_workload (hio : 1 ≤ p.ioPerCheckpoint) (htotal : 1 ≤ p.totalCheckpoints) :
    (Written p ↔ p.totalCheckpoints < 2 ^ 31 - 1) ∧
    (p.totalCheckpoints < 2 ^ 31 - 1 → ∀ s, Reached p s → ∀ n, 1 ≤ n →
      (TakenBack p s n ↔ s.status = .inactive ∨
        n = 1 ∧ s.status = .write ∧ defaultWrBufSize < p.ioPerCheckpoint - s.curCheckpointSz)) := by
  refine ⟨written_iff hio htotal, fun hmax s hs n hn => ?_⟩
  rw [← rewound_iff hio hmax (hs.writing hio htotal hmax) hn]
  exact ⟨fun h => h.1, fun h => ⟨h, h.ops n⟩⟩

/-- Two checkpoints of two writes each. -/
def twoCheckpoints : Param := ⟨1, 16777217, 2⟩

theorem twoCheckpoints_workload : Written twoCheckpoints ∧
    TakenBack twoCheckpoints (after twoCheckpoints 2 (load 0 0 0)) 1 ∧
    ¬TakenBack twoCheckpoints (after twoCheckpoints 3 (load 0 0 0)) 1 := by
  obtain ⟨hwritten, hback⟩ := checkpoint_workload (p := twoCheckpoints) (by decide) (by decide)
  refine ⟨hwritten.2 (by decide), (hback (by decide) _ ⟨0, 0, 0, 2, rfl⟩ 1 le_rfl).2 ?_, ?_⟩
  · exact .inr (by decide)
  · rw [hback (by decide) _ ⟨0, 0, 0, 3, rfl⟩ 1 le_rfl]
    decide

/-- The first call is not taken back: the open follows again, and not the delay. -/
theorem first_not_takenBack : ¬ ∀ (p : Param), 1 ≤ p.ioPerCheckpoint → 1 ≤ p.totalCheckpoints →
    ∀ s, Reached p s → ∀ n, 1 ≤ n → TakenBack p s n := by
  intro h
  have hback := h twoCheckpoints (by decide) (by decide) (load 0 0 0) ⟨0, 0, 0, 0, rfl⟩ 1 le_rfl
  exact absurd hback.1.1 (by decide)

end Checkpoint

end CodesSim.Workload
