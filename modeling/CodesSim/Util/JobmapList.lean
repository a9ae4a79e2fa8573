import CodesSim.Config.LpGroups
import CodesSim.Lib.Outcome
import CodesSim.Util.Jobmap
import Mathlib.Data.List.TakeWhile

/-!
# Job maps from an allocation file

`jobmap-list.c` reads the LPs of each job from a line of a file, and builds a second table for the
way back.  If a file has integers only, no two of them the same and none negative, the two tables
are inverse to each other (`jobmapList_bijection`).

* A read or write outside of an array, a number that no `int` holds and a pointer that was never
  written have no result (`Fault`).
* Reading the file does not fail once it is open, and there is memory.
-/

namespace CodesSim.JobmapList

open Config JobmapCtx Outcome

/-- Why there is no result. -/
inductive Fault where
  | overflow
  | outOfBounds
  | uninitialized
  deriving DecidableEq

/-- `INT_MAX`. -/
def intMax : ℤ := 2 ^ 31 - 1

/-- `INT_MIN`. -/
def intMin : ℤ := -2 ^ 31

/-! ### Reading lines -/

/-- The delimiters of `strtok`. -/
def isDelim (c : Char) : Bool := c == ' ' || c == '\t' || c == '\r'

/-- The tokens of a text. -/
def words (text : CStr) : List CStr := (text.splitOnP isDelim).filter fun w => !w.isEmpty

/-- The calls of `strtok`, which see the line up to its first zero. -/
def strtok (buf : CStr) : List CStr := words (cstr buf)

/-- `sscanf` with `%d`: the number at the beginning of a token. -/
def scanInt (tok : CStr) : Option ℤ :=
  let r := splitSign (tok.dropWhile isSpace)
  let digits := r.2.takeWhile Char.isDigit
  if digits = [] then none else some (if r.1 then -digitsVal digits else digitsVal digits)

/-- The loop over the tokens of a line.  There are no ranks if a token is bad. -/
def parseRanks : List CStr → Except Fault (Option (List ℤ))
  | [] => .ok (some [])
  | tok :: toks =>
    match scanInt tok with
    | none => .ok none
    | some rank =>
      if rank < intMin ∨ intMax < rank then .error .overflow
      else (parseRanks toks).map fun ranks => ranks.map (rank :: ·)

/-- `parse_line`. -/
def parseLine (line : CStr) : Except Fault (Option (List ℤ)) := parseRanks (strtok line)

/-- The arrays while they are filled. -/
structure Lists where
  globalIds : List (List ℤ)
  jobCap : ℕ

/-- The body of the loop over the lines, with the status of the line. -/
def Lists.addLine (lst : Lists) (line : CStr) : Except Fault (Lists × ℤ) :=
  if lst.jobCap ≤ lst.globalIds.length then .error .outOfBounds
  else (parseLine line).map fun
    | none => (lst, -1)
    | some [] => (lst, 0)
    | some ranks => ({ lst with globalIds := lst.globalIds ++ [ranks] }, 0)

/-- The arrays are made larger when they are full. -/
def Lists.resize (lst : Lists) : Lists :=
  if lst.globalIds.length = lst.jobCap then { lst with jobCap := lst.jobCap * 2 } else lst

/-- The loop over the lines.  The end of the file is found behind the last one, and the status is
the one of this line. -/
def readLines (lst : Lists) : List CStr → Except Fault (Lists × ℤ)
  | [] => .ok (lst, 0)
  | [line] => lst.addLine line
  | line :: lines => (lst.addLine line).bind fun r => readLines r.1.resize lines

/-! ### The table -/

/-- A job map (`jobmap_list`). -/
structure Jobmap where
  globalIds : List (List ℤ)
  highestGlobalId : ℤ
  idToJobmap : List JobmapId
  deriving DecidableEq

/-- The scan for the highest id. -/
def highest (globalIds : List (List ℤ)) : ℤ :=
  globalIds.flatten.foldl (fun high id => if high < id then id else high) (-1)

/-- One place of the table is written. -/
def setEntry (table : List JobmapId) (e : JobmapId × ℤ) : Except Fault (List JobmapId) :=
  if e.2 < 0 ∨ table.length ≤ e.2 then .error .outOfBounds else .ok (table.set e.2.toNat e.1)

/-- The table is made and filled. -/
def buildTable (globalIds : List (List ℤ)) : Except Fault Jobmap :=
  let high := highest globalIds
  if intMax < high + 1 then .error .overflow
  else ((entries globalIds).foldlM setEntry (List.replicate (high + 1).toNat .invalid)).map
    fun table => ⟨globalIds, high, table⟩

/-- `jobmap_list_configure`, for the text of the file if it can be opened: the map, or none if -1 is
returned.  Then the lists are freed; what lies behind the first eight and the last one that was
written is not initialized. -/
def jobmapListConfigure : Option CStr → Except Fault (Option Jobmap)
  | none => .ok none
  | some file =>
    (readLines ⟨[], 8⟩ (file.splitOn '\n')).bind fun r =>
      (buildTable r.1.globalIds).bind fun lst =>
        if r.2 = 0 then .ok (some lst)
        else if max 8 (r.1.globalIds.length + 1) < r.1.jobCap then .error .uninitialized
        else .ok none

/-- `jobmap_list_to_local`. -/
def jobmapListToLocal (id : ℤ) (lst : Jobmap) : JobmapId :=
  if id < 0 ∨ lst.highestGlobalId < id then .invalid else lst.idToJobmap.getD id.toNat .invalid

/-- `jobmap_list_to_global`. -/
def jobmapListToGlobal (id : JobmapId) (lst : Jobmap) : Option ℤ :=
  if id.job < lst.globalIds.length then (element? lst.globalIds id.job).bind (element? · id.rank)
  else some (-1)

/-- `jobmap_list_get_num_ranks`. -/
def jobmapListGetNumRanks (job : ℤ) (lst : Jobmap) : ℤ :=
  if job < 0 ∨ job ≥ lst.globalIds.length then -1
  else ((element? lst.globalIds job).map fun ids => (ids.length : ℤ)).getD (-1)

/-! ### The table and the lists -/

section Table

variable {globalIds : List (List ℤ)} {table table' : List JobmapId} {lst : Jobmap}

theorem highest_foldl (ids : List ℤ) (high : ℤ) :
    high ≤ ids.foldl (fun high id => if high < id then id else high) high ∧
      ∀ id ∈ ids, id ≤ ids.foldl (fun high id => if high < id then id else high) high := by
  induction ids generalizing high with
  | nil => exact ⟨Int.le_refl _, fun _ h => nomatch h⟩
  | cons id ids ih =>
    obtain ⟨hhigh, hids⟩ := ih (if high < id then id else high)
    rw [List.foldl_cons]
    refine ⟨Int.le_trans ?_ hhigh, fun i hi => ?_⟩
    · split_ifs <;> omega
    · rcases List.mem_cons.1 hi with rfl | hi
      · refine Int.le_trans ?_ hhigh
        split_ifs <;> omega
      · exact hids i hi

variable {id : ℤ}

theorem le_highest {ids : List ℤ} (hids : ids ∈ globalIds) (hid : id ∈ ids) :
    id ≤ highest globalIds :=
  (highest_foldl _ _).2 id (List.mem_flatten.2 ⟨ids, hids, hid⟩)

theorem highest_lt_iff (n : ℤ) (hn : 0 ≤ n) :
    highest globalIds < n ↔ ∀ ids ∈ globalIds, ∀ id ∈ ids, id < n := by
  constructor
  · intro h ids hids id hid
    exact Int.lt_of_le_of_lt (le_highest hids hid) h
  · intro h
    have hlt (ids : List ℤ) (high : ℤ) (hhigh : high < n) (hids : ∀ id ∈ ids, id < n) :
        ids.foldl (fun high id => if high < id then id else high) high < n := by
      induction ids generalizing high with
      | nil => exact hhigh
      | cons id ids ih =>
        rw [List.foldl_cons]
        refine ih _ ?_ fun i hi => hids i (List.mem_cons_of_mem _ hi)
        split_ifs
        · exact hids id List.mem_cons_self
        · exact hhigh
    refine hlt _ _ (by omega) fun id hid => ?_
    obtain ⟨ids, hids, hid⟩ := List.mem_flatten.1 hid
    exact h ids hids id hid

variable {es : List (JobmapId × ℤ)}

/-- What is in the table after some places were written: what was written last. -/
theorem fill_getD (h : es.foldlM setEntry table = .ok table')
    (hid : 0 ≤ id) : table'.getD id.toNat .invalid =
      ((es.reverse.find? fun e => e.2 == id).map Prod.fst).getD (table.getD id.toNat .invalid) := by
  induction es generalizing table with
  | nil =>
    cases h
    rfl
  | cons e es ih =>
    rw [List.foldlM_cons] at h
    obtain ⟨table₁, hset, h⟩ := bind_eq_ok h
    rw [ih h, List.reverse_cons, List.find?_append]
    unfold setEntry at hset
    split_ifs at hset with hrange
    obtain rfl := Except.ok.inj hset
    cases hfind : es.reverse.find? fun e => e.2 == id with
    | some e' => rfl
    | none =>
      by_cases heq : e.2 = id
      · subst heq
        have hlt : e.2.toNat < table.length := by omega
        simp [hlt]
      · have hne : e.2.toNat ≠ id.toNat := by omega
        simp [heq, List.getD_eq_getElem?_getD, List.getElem?_set_ne hne]

theorem fill_ok (h : ∀ e ∈ es, 0 ≤ e.2 ∧ e.2 < table.length) :
    ∃ table', es.foldlM setEntry table = .ok table' := by
  induction es generalizing table with
  | nil => exact ⟨table, rfl⟩
  | cons e es ih =>
    have hset : setEntry table e = .ok (table.set e.2.toNat e.1) := by
      have he := h e List.mem_cons_self
      exact if_neg (by omega)
    obtain ⟨table', htable⟩ := @ih (table.set e.2.toNat e.1) fun e' he' => by
      rw [List.length_set]
      exact h e' (List.mem_cons_of_mem _ he')
    refine ⟨table', ?_⟩
    rw [List.foldlM_cons, hset]
    exact htable

theorem fill_nonneg (h : es.foldlM setEntry table = .ok table') : ∀ e ∈ es, 0 ≤ e.2 := by
  induction es generalizing table with
  | nil => exact fun _ h => nomatch h
  | cons e es ih =>
    rw [List.foldlM_cons] at h
    obtain ⟨table₁, hset, h⟩ := bind_eq_ok h
    unfold setEntry at hset
    split_ifs at hset with hrange
    intro e' he'
    rcases List.mem_cons.1 he' with rfl | he'
    · omega
    · exact ih h e' he'

theorem mem_entries_iff {i : JobmapId} : (i, id) ∈ entries globalIds ↔
    ∃ (job rank : ℕ) (ids : List ℤ), globalIds[job]? = some ids ∧ ids[rank]? = some id ∧
      i = ⟨job, rank⟩ := by
  unfold entries
  simp only [List.mem_flatMap, List.mem_map, Prod.exists, List.mem_zipIdx_iff_getElem?,
    Prod.mk.injEq]
  constructor
  · rintro ⟨ids, job, hids, x, rank, hx, rfl, rfl⟩
    exact ⟨job, rank, ids, hids, hx, rfl⟩
  · rintro ⟨job, rank, ids, hids, hx, rfl⟩
    exact ⟨ids, job, hids, id, rank, hx, rfl, rfl⟩

theorem buildTable_ok (h : ∀ ids ∈ globalIds, ∀ id ∈ ids, 0 ≤ id ∧ id < intMax) :
    ∃ lst, buildTable globalIds = .ok lst := by
  have hhigh : highest globalIds < intMax :=
    (highest_lt_iff intMax (by decide)).2 fun ids hids id hid => (h ids hids id hid).2
  obtain ⟨table, htable⟩ := @fill_ok (List.replicate (highest globalIds + 1).toNat .invalid)
    (entries globalIds) fun e he => by
      obtain ⟨job, rank, ids, hids, hid, -⟩ := mem_entries_iff.1 he
      have hmem := List.mem_of_getElem? hid
      have hle := le_highest (List.mem_of_getElem? hids) hmem
      have hnonneg := (h ids (List.mem_of_getElem? hids) _ hmem).1
      rw [List.length_replicate]
      omega
  refine ⟨⟨globalIds, highest globalIds, table⟩, ?_⟩
  simp only [buildTable, htable]
  rw [if_neg (by omega)]
  rfl

/-- **The table** is the way back of the lists. -/
theorem buildTable_spec (h : buildTable globalIds = .ok lst) : lst.globalIds = globalIds ∧
    (∀ ids ∈ globalIds, ∀ id ∈ ids, 0 ≤ id ∧ id < intMax) ∧
    ∀ id, jobmapListToLocal id lst = (JobmapCtx.list globalIds).toLocalId id := by
  unfold buildTable at h
  dsimp only at h
  split_ifs at h with hover
  obtain ⟨table, hfill, rfl⟩ := map_eq_ok h
  have hlt : ∀ ids ∈ globalIds, ∀ id ∈ ids, id < intMax :=
    (highest_lt_iff intMax (by decide)).1 (by omega)
  refine ⟨rfl, fun ids hids id hid => ⟨?_, hlt ids hids id hid⟩, fun id => ?_⟩
  · obtain ⟨job, hjob⟩ := List.mem_iff_getElem?.1 hids
    obtain ⟨rank, hrank⟩ := List.mem_iff_getElem?.1 hid
    exact fill_nonneg hfill _ (mem_entries_iff.2 ⟨job, rank, ids, hjob, hrank, rfl⟩)
  · rw [jobmapListToLocal, toLocalId]
    by_cases hneg : id < 0
    · rw [if_pos (.inl hneg), if_pos hneg]
    rw [if_neg hneg]
    by_cases hhigh : highest globalIds < id
    · -- nothing is listed above the highest id
      have hnone : ((entries globalIds).reverse.find? fun e => e.2 == id) = none := by
        rw [List.find?_eq_none]
        rintro ⟨i, x⟩ hx heq
        obtain ⟨job, rank, ids, hids, hid, -⟩ := mem_entries_iff.1 (List.mem_reverse.1 hx)
        have hle := le_highest (List.mem_of_getElem? hids) (List.mem_of_getElem? hid)
        have heq : x = id := by simpa using heq
        omega
      rw [if_pos (.inr hhigh), hnone]
      rfl
    · rw [if_neg (by simp [hneg, hhigh]), fill_getD hfill (by omega), List.getD_eq_getElem?_getD,
        List.getElem?_replicate]
      split_ifs <;> rfl

theorem place_unique (hnodup : globalIds.flatten.Nodup) {job job' rank rank' : ℕ}
    {ids ids' : List ℤ}
    (hids : globalIds[job]? = some ids) (hid : ids[rank]? = some id)
    (hids' : globalIds[job']? = some ids') (hid' : ids'[rank']? = some id) :
    job = job' ∧ rank = rank' := by
  obtain ⟨hnodup, hdisj⟩ := List.nodup_flatten.1 hnodup
  have hmem := List.mem_of_getElem? hid
  have hmem' := List.mem_of_getElem? hid'
  obtain ⟨hlt, rfl⟩ := List.getElem?_eq_some_iff.1 hids
  obtain ⟨hlt', rfl⟩ := List.getElem?_eq_some_iff.1 hids'
  have hjob : job = job' := by
    rcases Nat.lt_trichotomy job job' with hj | hj | hj
    · exact absurd hmem' (List.disjoint_left.1 (List.pairwise_iff_getElem.1 hdisj _ _ hlt hlt' hj)
        hmem)
    · exact hj
    · exact absurd hmem (List.disjoint_left.1 (List.pairwise_iff_getElem.1 hdisj _ _ hlt' hlt hj)
        hmem')
  subst hjob
  have hids := hnodup _ (List.getElem_mem hlt)
  obtain ⟨hr, heq⟩ := List.getElem?_eq_some_iff.1 hid
  obtain ⟨hr', heq'⟩ := List.getElem?_eq_some_iff.1 hid'
  exact ⟨rfl, (hids.getElem_inj_iff).1 (heq.trans heq'.symm)⟩

theorem toLocalId_of_listed (hnodup : globalIds.flatten.Nodup) {job rank : ℕ} {ids : List ℤ}
    (hids : globalIds[job]? = some ids) (hid : ids[rank]? = some id) (hnonneg : 0 ≤ id) :
    (JobmapCtx.list globalIds).toLocalId id = ⟨job, rank⟩ := by
  have hmem : ((⟨job, rank⟩, id) : JobmapId × ℤ) ∈ entries globalIds :=
    mem_entries_iff.2 ⟨job, rank, ids, hids, hid, rfl⟩
  rw [toLocalId, if_neg (by omega)]
  cases hfind : (entries globalIds).reverse.find? fun e => e.2 == id with
  | none =>
    rw [List.find?_eq_none] at hfind
    exact absurd (beq_self_eq_true id) (hfind _ (List.mem_reverse.2 hmem))
  | some e =>
    obtain ⟨i, x⟩ := e
    obtain rfl : x = id := by simpa using List.find?_some hfind
    obtain ⟨job', rank', ids', hids', hid', rfl⟩ :=
      mem_entries_iff.1 (List.mem_reverse.1 (List.mem_of_find?_eq_some hfind))
    obtain ⟨rfl, rfl⟩ := place_unique hnodup hids hid hids' hid'
    rfl

theorem toLocalId_of_notMem (hid : id ∉ globalIds.flatten) :
    (JobmapCtx.list globalIds).toLocalId id = .invalid := by
  rw [toLocalId]
  split_ifs with hneg
  · rfl
  · have hnone : ((entries globalIds).reverse.find? fun e => e.2 == id) = none := by
      rw [List.find?_eq_none]
      rintro ⟨i, x⟩ hx heq
      obtain ⟨job, rank, ids, hids, hx, -⟩ := mem_entries_iff.1 (List.mem_reverse.1 hx)
      obtain rfl : x = id := by simpa using heq
      exact hid (List.mem_flatten.2 ⟨ids, List.mem_of_getElem? hids, List.mem_of_getElem? hx⟩)
    rw [hnone]
    rfl

end Table

/-! ### Lines -/

/-- The numbers that are read, up to the first token that is bad. -/
def numbers : List CStr → List ℤ
  | [] => []
  | tok :: toks =>
    match scanInt tok with
    | none => []
    | some n => n :: numbers toks

/-- No token is bad. -/
def Readable (toks : List CStr) : Prop := ∀ tok ∈ toks, scanInt tok ≠ none

instance (toks : List CStr) : Decidable (Readable toks) := List.decidableBAll _ _

/-- An `int` holds the number. -/
def InInt (n : ℤ) : Prop := intMin ≤ n ∧ n ≤ intMax

instance (n : ℤ) : Decidable (InInt n) := inferInstanceAs (Decidable (_ ∧ _))

/-- The job of a line. -/
def lineJob (line : CStr) : Option (List ℤ) :=
  if Readable (strtok line) ∧ numbers (strtok line) ≠ [] then some (numbers (strtok line)) else none

/-- The arrays have grown as far as it was needed. -/
def Lists.CapOk (lst : Lists) : Prop :=
  ∃ k, lst.jobCap = 8 * 2 ^ k ∧ (k = 0 ∨ lst.jobCap ≤ 2 * lst.globalIds.length)

section Lines

variable {toks : List CStr} {line : CStr} {lines : List CStr} {lst : Lists}

theorem parseRanks_eq (toks : List CStr) : parseRanks toks =
    if ∀ n ∈ numbers toks, InInt n then .ok (if Readable toks then some (numbers toks) else none)
    else .error .overflow := by
  induction toks with
  | nil => rfl
  | cons tok toks ih =>
    cases hscan : scanInt tok with
    | none =>
      have hbad : ¬Readable (tok :: toks) := fun h => h tok List.mem_cons_self hscan
      simp [parseRanks, numbers, hscan, hbad]
    | some n =>
      have hread : Readable (tok :: toks) ↔ Readable toks := by
        simp [Readable, hscan]
      simp only [parseRanks, numbers, hscan, ih, List.forall_mem_cons, hread]
      by_cases hn : InInt n
      · have hn' : ¬(n < intMin ∨ intMax < n) := by
          have := hn.1
          have := hn.2
          omega
        rw [if_neg hn']
        by_cases hall : ∀ m ∈ numbers toks, InInt m
        · have hboth : InInt n ∧ ∀ m ∈ numbers toks, InInt m := ⟨hn, hall⟩
          rw [if_pos hall, if_pos hboth]
          by_cases hr : Readable toks
          · simp [hr, Except.map]
          · simp [hr, Except.map]
        · rw [if_neg hall, if_neg fun h => hall h.2]
          rfl
      · have hn' : n < intMin ∨ intMax < n := by
          by_contra hne
          exact hn ⟨by omega, by omega⟩
        rw [if_pos hn', if_neg fun h => hn h.1]

/-- **A line** gives a job, or nothing if it is empty or bad. -/
theorem addLine_ok (hroom : lst.globalIds.length < lst.jobCap)
    (hint : ∀ n ∈ numbers (strtok line), InInt n) : lst.addLine line =
      .ok ({ lst with globalIds := lst.globalIds ++ (lineJob line).toList },
        if Readable (strtok line) then 0 else -1) := by
  rw [Lists.addLine, if_neg (by omega), parseLine, parseRanks_eq, if_pos hint, lineJob]
  by_cases hread : Readable (strtok line)
  · simp only [hread, if_true, true_and]
    cases hnum : numbers (strtok line) with
    | nil => simp [Except.map]
    | cons n ns => simp [Except.map]
  · simp [hread, Except.map]

theorem addLine_overflow (hroom : lst.globalIds.length < lst.jobCap)
    (hint : ¬∀ n ∈ numbers (strtok line), InInt n) : lst.addLine line = .error .overflow := by
  rw [Lists.addLine, if_neg (by omega), parseLine, parseRanks_eq, if_neg hint]
  rfl

theorem resize_room (h : lst.globalIds.length ≤ lst.jobCap) (hcap : 0 < lst.jobCap) :
    lst.resize.globalIds = lst.globalIds ∧ lst.globalIds.length < lst.resize.jobCap := by
  unfold Lists.resize
  split_ifs with hfull
  · exact ⟨rfl, by dsimp only; omega⟩
  · exact ⟨rfl, by omega⟩

theorem resize_cap (h : lst.CapOk) : lst.resize.CapOk := by
  obtain ⟨k, hk, hsmall⟩ := h
  unfold Lists.resize
  split_ifs with hfull
  · refine ⟨k + 1, ?_, .inr ?_⟩
    · simp only [hk, Nat.pow_succ]
      omega
    · simp only
      omega
  · exact ⟨k, hk, hsmall⟩

theorem cap_append (h : lst.CapOk) (more : List (List ℤ)) :
    Lists.CapOk { lst with globalIds := lst.globalIds ++ more } := by
  obtain ⟨k, hk, hsmall⟩ := h
  refine ⟨k, hk, hsmall.imp id fun hle => ?_⟩
  simp only [List.length_append]
  omega

theorem lineJob_length (line : CStr) : (lineJob line).toList.length ≤ 1 := by
  cases lineJob line <;> simp

/-- **The lines** of a file, if the numbers in them are of type `int`.  The status is the one of the
last line. -/
theorem readLines_ok (hroom : lst.globalIds.length < lst.jobCap) (hcap : lst.CapOk)
    (hne : lines ≠ []) (hint : ∀ line ∈ lines, ∀ n ∈ numbers (strtok line), InInt n) :
    ∃ lst', readLines lst lines =
        .ok (lst', if Readable (strtok (lines.getLast hne)) then 0 else -1) ∧
      lst'.globalIds = lst.globalIds ++ lines.filterMap lineJob ∧ lst'.CapOk ∧
      (¬Readable (strtok (lines.getLast hne)) → lst'.globalIds.length < lst'.jobCap) := by
  induction lines generalizing lst with
  | nil => exact absurd rfl hne
  | cons line lines ih =>
    have hadd := addLine_ok hroom (hint line List.mem_cons_self)
    cases lines with
    | nil =>
      refine ⟨_, hadd, ?_, cap_append hcap _, fun hbad => ?_⟩
      · cases hjob : lineJob line <;> simp [hjob]
      · have hbad : ¬Readable (strtok line) := hbad
        simpa [lineJob, hbad] using hroom
    | cons line' lines =>
      let lst₁ : Lists := { lst with globalIds := lst.globalIds ++ (lineJob line).toList }
      have hle : lst₁.globalIds.length ≤ lst₁.jobCap := by
        have := lineJob_length line
        simp only [lst₁, List.length_append]
        omega
      obtain ⟨hids, hroom₁⟩ := resize_room hle (Nat.zero_lt_of_lt hroom)
      have hroom₂ : lst₁.resize.globalIds.length < lst₁.resize.jobCap := hids ▸ hroom₁
      obtain ⟨lst', hread, hjobs, hcap', hlast⟩ := ih hroom₂
        (resize_cap (cap_append hcap _)) (List.cons_ne_nil _ _)
        fun l hl => hint l (List.mem_cons_of_mem _ hl)
      refine ⟨lst', ?_, ?_, hcap', ?_⟩
      · rw [readLines, hadd]
        · exact hread
        · simp
      · rw [hjobs, hids, List.append_assoc]
        cases hjob : lineJob line <;> simp [hjob]
      · simpa using hlast

theorem readLines_overflow (hroom : lst.globalIds.length < lst.jobCap)
    (hint : ¬∀ line ∈ lines, ∀ n ∈ numbers (strtok line), InInt n) :
    readLines lst lines = .error .overflow := by
  induction lines generalizing lst with
  | nil => exact absurd (fun _ h => nomatch h) hint
  | cons line lines ih =>
    by_cases hline : ∀ n ∈ numbers (strtok line), InInt n
    · have hadd := addLine_ok hroom hline
      have hrest : ¬∀ l ∈ lines, ∀ n ∈ numbers (strtok l), InInt n := fun h =>
        hint (List.forall_mem_cons.2 ⟨hline, h⟩)
      have hne : lines ≠ [] := by
        rintro rfl
        exact hrest fun _ h => nomatch h
      let lst₁ : Lists := { lst with globalIds := lst.globalIds ++ (lineJob line).toList }
      have hle : lst₁.globalIds.length ≤ lst₁.jobCap := by
        have := lineJob_length line
        simp only [lst₁, List.length_append]
        omega
      obtain ⟨hids, hroom₁⟩ := resize_room hle (Nat.zero_lt_of_lt hroom)
      have hroom₂ : lst₁.resize.globalIds.length < lst₁.resize.jobCap := hids ▸ hroom₁
      rw [readLines, hadd]
      · exact ih hroom₂ hrest
      · exact hne
    · have hadd := addLine_overflow hroom hline
      cases lines with
      | nil => exact hadd
      | cons line' lines =>
        rw [readLines, hadd]
        · rfl
        · simp

end Lines

/-! ### Files -/

/-- The lines of a file.  What follows the last newline is one of them. -/
def fileLines (file : CStr) : List CStr := file.splitOn '\n'

theorem fileLines_ne_nil (file : CStr) : fileLines file ≠ [] := List.splitOn_ne_nil _ _

/-- The last line of a file. -/
def lastLine (file : CStr) : CStr := (fileLines file).getLast (fileLines_ne_nil file)

/-- All numbers that are read are of type `int`. -/
def AllInt (file : CStr) : Prop := ∀ line ∈ fileLines file, ∀ n ∈ numbers (strtok line), InInt n

/-- The jobs that are read. -/
def readJobs (file : CStr) : List (List ℤ) := (fileLines file).filterMap lineJob

/-- The ids have places in a table. -/
def IdsFit (globalIds : List (List ℤ)) : Prop := ∀ ids ∈ globalIds, ∀ id ∈ ids, 0 ≤ id ∧ id < intMax

section Files

variable {file : CStr} {lst : Jobmap}

/-- **What is returned** for a file. -/
theorem configure_eq (hint : AllInt file) : ∃ lists : Lists, lists.globalIds = readJobs file ∧
    lists.CapOk ∧ (¬Readable (strtok (lastLine file)) → lists.globalIds.length < lists.jobCap) ∧
    jobmapListConfigure (some file) = (buildTable (readJobs file)).bind fun lst =>
      if Readable (strtok (lastLine file)) then .ok (some lst)
      else if max 8 (lists.globalIds.length + 1) < lists.jobCap then .error .uninitialized
      else .ok none := by
  have hempty : (⟨[], 8⟩ : Lists).CapOk := ⟨0, rfl, .inl rfl⟩
  obtain ⟨lists, hread, hjobs, hcap, hlast⟩ :=
    readLines_ok (by decide) hempty (fileLines_ne_nil file) hint
  refine ⟨lists, hjobs, hcap, hlast, ?_⟩
  have hjobs : lists.globalIds = readJobs file := hjobs
  have hread : readLines ⟨[], 8⟩ (fileLines file) =
      .ok (lists, if Readable (strtok (lastLine file)) then 0 else -1) := hread
  rw [jobmapListConfigure, ← fileLines, hread]
  simp only [Except.bind, hjobs]
  cases buildTable (readJobs file) with
  | error f => rfl
  | ok lst =>
    by_cases hr : Readable (strtok (lastLine file))
    · simp [hr]
    · simp [hr]

theorem configure_overflow (hint : ¬AllInt file) :
    jobmapListConfigure (some file) = .error .overflow := by
  rw [jobmapListConfigure, ← fileLines, readLines_overflow (by decide) hint]
  rfl

theorem configure_spec (h : jobmapListConfigure (some file) = .ok (some lst)) :
    AllInt file ∧ Readable (strtok (lastLine file)) ∧ buildTable (readJobs file) = .ok lst := by
  by_cases hint : AllInt file
  · obtain ⟨lists, -, -, -, heq⟩ := configure_eq hint
    rw [heq] at h
    obtain ⟨lst', hbuild, h⟩ := bind_eq_ok h
    split_ifs at h with hr
    · cases h
      exact ⟨hint, hr, hbuild⟩
    · cases h
  · rw [configure_overflow hint] at h
    cases h

end Files

/-! ### Files of integers -/

/-- The integer that a token denotes. -/
def intOf (tok : CStr) : Option ℤ :=
  let r := splitSign tok
  if r.2 ≠ [] ∧ r.2.all Char.isDigit = true then
    some (if r.1 then -digitsVal r.2 else digitsVal r.2)
  else none

/-- The integers of a line. -/
def listed (line : CStr) : List ℤ := (words line).filterMap intOf

/-- A line has integers only. -/
def IntegerLine (line : CStr) : Prop := ∀ tok ∈ words line, intOf tok ≠ none

instance (line : CStr) : Decidable (IntegerLine line) := List.decidableBAll _ _

/-- The jobs of a file: its lines that are not empty. -/
def jobLines (file : CStr) : List (List ℤ) :=
  ((fileLines file).map listed).filter fun ids => !ids.isEmpty

section Integers

variable {tok line file : CStr} {n : ℤ}

theorem digits_of_intOf (h : intOf tok ≠ none) :
    (splitSign tok).2 ≠ [] ∧ (splitSign tok).2.all Char.isDigit = true := by
  by_contra hne
  exact h (if_neg hne)

/-- A token of digits is read as the integer that it denotes. -/
theorem scanInt_of_intOf (h : intOf tok ≠ none) : scanInt tok = intOf tok := by
  have hdigits := digits_of_intOf h
  have hdrop : tok.dropWhile isSpace = tok := by
    cases tok with
    | nil => rfl
    | cons c tok =>
      have hc : isSpace c = false := by
        by_cases hminus : c = '-'
        · rw [hminus]
          decide
        by_cases hplus : c = '+'
        · rw [hplus]
          decide
        have hsign : splitSign (c :: tok) = (false, c :: tok) := by simp [splitSign, hminus, hplus]
        rw [hsign] at hdigits
        exact isSpace_of_isDigit (List.all_eq_true.1 hdigits.2 c List.mem_cons_self)
      rw [List.dropWhile_cons, hc]
      rfl
  have hall : (splitSign tok).2.takeWhile Char.isDigit = (splitSign tok).2 :=
    List.takeWhile_eq_self_iff.2 (List.all_eq_true.1 hdigits.2)
  rw [scanInt, intOf, if_pos hdigits, hdrop, hall, if_neg hdigits.1]

/-- There is no zero in an integer. -/
theorem noNul_of_intOf (h : intOf tok ≠ none) : NoNul tok := by
  intro hmem
  have hdigit : '\x00' ∈ (splitSign tok).2 := by
    unfold splitSign
    split
    · exact (List.mem_cons.1 hmem).resolve_left (by decide)
    · exact (List.mem_cons.1 hmem).resolve_left (by decide)
    · exact hmem
  exact absurd (List.all_eq_true.1 (digits_of_intOf h).2 _ hdigit) (by decide)

theorem mem_splitOnP {p : Char → Bool} {c : Char} (hc : p c = false) {text : CStr} (h : c ∈ text) :
    ∃ w ∈ text.splitOnP p, c ∈ w := by
  induction text with
  | nil => cases h
  | cons c' text ih =>
    rw [List.splitOnP_cons_eq_if_modifyHead]
    by_cases hc' : p c' = true
    · rw [if_pos hc']
      have hne : c ≠ c' := by
        rintro rfl
        rw [hc] at hc'
        cases hc'
      obtain ⟨w, hw, hmem⟩ := ih ((List.mem_cons.1 h).resolve_left hne)
      exact ⟨w, List.mem_cons_of_mem _ hw, hmem⟩
    · rw [if_neg hc']
      cases hsplit : text.splitOnP p with
      | nil => exact absurd hsplit (List.splitOnP_ne_nil _ _)
      | cons w ws =>
        rw [List.modifyHead_cons]
        rcases List.mem_cons.1 h with rfl | h
        · exact ⟨c :: w, List.mem_cons_self, List.mem_cons_self⟩
        · obtain ⟨w', hw', hmem⟩ := ih h
          rw [hsplit] at hw'
          rcases List.mem_cons.1 hw' with rfl | hw'
          · exact ⟨c' :: w', List.mem_cons_self, List.mem_cons_of_mem _ hmem⟩
          · exact ⟨w', List.mem_cons_of_mem _ hw', hmem⟩

theorem strtok_of_integers (h : IntegerLine line) : strtok line = words line := by
  have hnul : NoNul line := by
    intro hmem
    obtain ⟨w, hw, hmem⟩ := mem_splitOnP (p := isDelim) (by decide) hmem
    have hne : w.isEmpty = false := by
      cases w with
      | nil => cases hmem
      | cons => rfl
    have hw : w ∈ words line := List.mem_filter.2 ⟨hw, by rw [hne]; rfl⟩
    exact noNul_of_intOf (h w hw) hmem
  have hcstr : cstr line = line :=
    List.takeWhile_eq_self_iff.2 fun c hc => decide_eq_true fun h0 => hnul (h0 ▸ hc)
  rw [strtok, hcstr]

theorem readable_of_integers (h : IntegerLine line) : Readable (strtok line) := by
  rw [strtok_of_integers h]
  intro tok htok
  rw [scanInt_of_intOf (h tok htok)]
  exact h tok htok

theorem numbers_eq_filterMap {toks : List CStr} (h : ∀ tok ∈ toks, intOf tok ≠ none) :
    numbers toks = toks.filterMap intOf := by
  induction toks with
  | nil => rfl
  | cons tok toks ih =>
    have htok := h tok List.mem_cons_self
    obtain ⟨n, hn⟩ := Option.ne_none_iff_exists'.1 htok
    rw [numbers, scanInt_of_intOf htok, List.filterMap_cons, hn,
      ih fun t ht => h t (List.mem_cons_of_mem _ ht)]

theorem numbers_of_integers (h : IntegerLine line) : numbers (strtok line) = listed line := by
  rw [strtok_of_integers h, numbers_eq_filterMap h, listed]

/-- **The jobs** of a file of integers are its lines that are not empty. -/
theorem readJobs_of_integers (h : ∀ line ∈ fileLines file, IntegerLine line) :
    readJobs file = jobLines file := by
  unfold readJobs jobLines
  generalize fileLines file = lines at *
  induction lines with
  | nil => rfl
  | cons line lines ih =>
    have hline := h line List.mem_cons_self
    have hrest := ih fun l hl => h l (List.mem_cons_of_mem _ hl)
    rw [List.filterMap_cons, List.map_cons, List.filter_cons, hrest, lineJob,
      numbers_of_integers hline]
    cases hlisted : listed line with
    | nil => simp
    | cons n ns => simp [readable_of_integers hline]

end Integers

/-- **The map is a bijection.**  If a file has integers only and none of them twice, and it is read
with success, then the jobs are the lines that are not empty, the two directions of the map are
inverse to each other, and what is not listed has no rank. -/
theorem jobmapList_bijection (file : CStr) (lst : Jobmap)
    (hint : ∀ line ∈ fileLines file, IntegerLine line) (hnodup : (jobLines file).flatten.Nodup)
    (hok : jobmapListConfigure (some file) = .ok (some lst)) :
    (∀ (job rank : ℕ) (ids : List ℤ) (id : ℤ), (jobLines file)[job]? = some ids →
      ids[rank]? = some id → jobmapListToGlobal ⟨job, rank⟩ lst = some id ∧
        jobmapListToLocal id lst = ⟨job, rank⟩) ∧
    (∀ id ∈ (jobLines file).flatten,
      jobmapListToGlobal (jobmapListToLocal id lst) lst = some id) ∧
    (∀ id ∉ (jobLines file).flatten, jobmapListToLocal id lst = ⟨-1, -1⟩) ∧
    lst.globalIds.length = (jobLines file).length ∧
    ∀ (job : ℕ) (ids : List ℤ), (jobLines file)[job]? = some ids →
      jobmapListGetNumRanks job lst = ids.length := by
  obtain ⟨-, -, hbuild⟩ := configure_spec hok
  rw [readJobs_of_integers hint] at hbuild
  obtain ⟨hids, hfit, hlocal⟩ := buildTable_spec hbuild
  have hjob {job : ℕ} {ids : List ℤ} (hjob : (jobLines file)[job]? = some ids) :
      job < lst.globalIds.length ∧ element? lst.globalIds job = some ids := by
    rw [hids]
    exact ⟨(List.getElem?_eq_some_iff.1 hjob).1, (if_neg (by omega)).trans hjob⟩
  have hboth (job rank : ℕ) (ids : List ℤ) (id : ℤ) (hj : (jobLines file)[job]? = some ids)
      (hr : ids[rank]? = some id) : jobmapListToGlobal ⟨job, rank⟩ lst = some id ∧
        jobmapListToLocal id lst = ⟨job, rank⟩ := by
    obtain ⟨hlt, helem⟩ := hjob hj
    constructor
    · have hrank : element? ids rank = some id := (if_neg (by omega)).trans hr
      rw [jobmapListToGlobal, if_pos (Int.ofNat_lt.2 hlt), helem]
      exact hrank
    · have hnonneg := (hfit ids (List.mem_of_getElem? hj) id (List.mem_of_getElem? hr)).1
      rw [hlocal, toLocalId_of_listed hnodup hj hr hnonneg]
  refine ⟨hboth, fun id hid => ?_, fun id hid => ?_, by rw [hids], fun job ids hj => ?_⟩
  · obtain ⟨ids, hids, hid⟩ := List.mem_flatten.1 hid
    obtain ⟨job, hj⟩ := List.mem_iff_getElem?.1 hids
    obtain ⟨rank, hr⟩ := List.mem_iff_getElem?.1 hid
    obtain ⟨hglobal, hloc⟩ := hboth job rank ids id hj hr
    rw [hloc]
    exact hglobal
  · rw [hlocal, toLocalId_of_notMem hid]
    rfl
  · obtain ⟨hlt, helem⟩ := hjob hj
    rw [jobmapListGetNumRanks, if_neg (by omega), helem]
    rfl

/-- Two jobs, and an empty line between them. -/
def twoJobs : CStr := "3 1\n\n0 7 2\n".toList

/-- What is made of it. -/
def twoJobsMap : Jobmap where
  globalIds := [[3, 1], [0, 7, 2]]
  highestGlobalId := 7
  idToJobmap := [⟨1, 0⟩, ⟨0, 1⟩, ⟨1, 2⟩, ⟨0, 0⟩, ⟨-1, -1⟩, ⟨-1, -1⟩, ⟨-1, -1⟩, ⟨1, 1⟩]

theorem jobmapList_bijection_twoJobs :
    jobmapListConfigure (some twoJobs) = .ok (some twoJobsMap) ∧
    jobmapListToGlobal ⟨1, 1⟩ twoJobsMap = some 7 ∧ jobmapListToLocal 7 twoJobsMap = ⟨1, 1⟩ := by
  have hok : jobmapListConfigure (some twoJobs) = .ok (some twoJobsMap) := by decide +kernel
  refine ⟨hok, ?_⟩
  exact (jobmapList_bijection twoJobs twoJobsMap (by decide +kernel) (by decide +kernel) hok).1
    1 1 [0, 7, 2] 7 (by decide +kernel) rfl

end CodesSim.JobmapList
