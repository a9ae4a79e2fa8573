import CodesSim.Mapping.Basic

/-!
# Job maps

Which LP is which rank of which job (`codes-jobmap.c`).  One kind of map has a single job, whose
ranks are the LPs themselves (`jobmap-identity.c`); another lists the LPs of each job
(`jobmap-list.c`).

* The lists are looked up without a check of the rank: `JobmapCtx.toGlobalId` is `none` where the
  code reads past a list.
-/

namespace CodesSim

/-- A rank of a job (`codes_jobmap_id`). -/
structure JobmapId where
  job : ℤ
  rank : ℤ
  deriving DecidableEq

/-- What is found where there is nothing. -/
def JobmapId.invalid : JobmapId := ⟨-1, -1⟩

/-- A job map (`codes_jobmap_ctx`). -/
inductive JobmapCtx where
  | identity (numRanks : ℤ)
  /-- The LPs of each job. -/
  | list (globalIds : List (List ℤ))

namespace JobmapCtx

/-- The ranks of all jobs with their LPs, in the order in which `id_to_jobmap` is filled. -/
def entries (globalIds : List (List ℤ)) : List (JobmapId × ℤ) :=
  globalIds.zipIdx.flatMap fun ids => ids.1.zipIdx.map fun id => (⟨ids.2, id.2⟩, id.1)

/-- `codes_jobmap_to_local_id`.  In a list, what is filled in later stays. -/
def toLocalId : JobmapCtx → ℤ → JobmapId
  | identity numRanks, id => if id < 0 ∨ id ≥ numRanks then .invalid else ⟨0, id⟩
  | list globalIds, id =>
    if id < 0 then .invalid
    else (((entries globalIds).reverse.find? fun e => e.2 == id).map Prod.fst).getD .invalid

/-- `codes_jobmap_get_num_ranks`. -/
def getNumRanks : JobmapCtx → ℤ → ℤ
  | identity numRanks, job => if job = 0 then numRanks else -1
  | list globalIds, job =>
    if job < 0 then -1 else (globalIds[job.toNat]?.map fun ids => (ids.length : ℤ)).getD (-1)

/-- An element of an array, if the index is one of its. -/
def element? {α : Type*} (xs : List α) (i : ℤ) : Option α := if i < 0 then none else xs[i.toNat]?

/-- `codes_jobmap_to_global_id`. -/
def toGlobalId : JobmapCtx → JobmapId → Option ℤ
  | identity numRanks, id =>
    if id.job ≥ 1 ∨ id.rank ≥ numRanks ∨ id.job < 0 ∨ id.rank < 0 then some (-1) else some id.rank
  | list globalIds, id =>
    if id.job < globalIds.length then (element? globalIds id.job).bind (element? · id.rank)
    else some (-1)

/-- **A rank of a job is one of its ranks.** -/
theorem toLocalId_rank (c : JobmapCtx) (id : ℤ) (h : c.toLocalId id ≠ .invalid) :
    0 ≤ (c.toLocalId id).job ∧ 0 ≤ (c.toLocalId id).rank ∧
      (c.toLocalId id).rank < c.getNumRanks (c.toLocalId id).job := by
  cases c with
  | identity numRanks =>
    simp only [toLocalId] at h ⊢
    split_ifs at h ⊢ with hid
    · exact absurd rfl h
    · have hnum : getNumRanks (identity numRanks) 0 = numRanks := rfl
      refine ⟨Int.le_refl 0, ?_, ?_⟩
      · show 0 ≤ id
        omega
      · show id < getNumRanks (identity numRanks) 0
        omega
  | list globalIds =>
    simp only [toLocalId] at h ⊢
    split_ifs at h ⊢ with hid
    · exact absurd rfl h
    · cases hfind : (entries globalIds).reverse.find? fun e => e.2 == id with
      | none => rw [hfind] at h; exact absurd rfl h
      | some e =>
        have hmem := List.mem_reverse.1 (List.mem_of_find?_eq_some hfind)
        obtain ⟨⟨ids, i⟩, hids, hmem⟩ := List.mem_flatMap.1 hmem
        obtain ⟨⟨x, j⟩, hx, rfl⟩ := List.mem_map.1 hmem
        have hids := List.mem_zipIdx_iff_getElem?.1 hids
        have hx := (List.getElem?_eq_some_iff.1 (List.mem_zipIdx_iff_getElem?.1 hx)).1
        have hnum : getNumRanks (list globalIds) i = ids.length := by
          have hlt : ¬(i : ℤ) < 0 := by omega
          rw [getNumRanks, if_neg hlt, Int.toNat_natCast, hids]
          rfl
        refine ⟨Int.natCast_nonneg _, Int.natCast_nonneg _, ?_⟩
        exact (Int.ofNat_lt.2 hx).trans_eq hnum.symm

/-- **A list is read within its bounds** exactly if the rank is one of the job. -/
theorem toGlobalId_isSome_iff {c : JobmapCtx} {job : ℤ} (hjob : 0 ≤ c.getNumRanks job) (rank : ℤ) :
    (c.toGlobalId ⟨job, rank⟩).isSome = true ↔
      (∃ numRanks, c = identity numRanks) ∨ (0 ≤ rank ∧ rank < c.getNumRanks job) := by
  cases c with
  | identity numRanks =>
    simp only [toGlobalId, identity.injEq, exists_eq', true_or, iff_true]
    split_ifs <;> rfl
  | list globalIds =>
    simp only [toGlobalId, getNumRanks] at hjob ⊢
    split_ifs at hjob with hneg
    · omega
    · cases hget : globalIds[job.toNat]? with
      | none => rw [hget] at hjob; exact absurd hjob (by decide)
      | some ids =>
        have hlt := (List.getElem?_eq_some_iff.1 hget).1
        have hlt' : job < globalIds.length := by omega
        have hids : element? globalIds job = some ids := (if_neg hneg).trans hget
        rw [if_pos hlt', hids, if_neg hneg]
        simp only [Option.bind_some, reduceCtorEq, exists_false, false_or, Option.map_some,
          Option.getD_some, element?]
        split_ifs with hrank
        · simp only [Option.isSome_none, Bool.false_eq_true, false_iff]
          omega
        · rw [Option.isSome_iff_ne_none, ne_eq, List.getElem?_eq_none_iff]
          omega

end JobmapCtx

end CodesSim
