import CodesSim.Sched.Basic

/-!
# Statistics by category

An LP of a network counts what it sends and receives in an array of `mn_stats`, one slot for each
category.  `model_net_find_stats` gives a category the first free slot when it is used for the first
time.  The slot that a handler has written to is the slot that its reverse handler finds
(`findStats_update`), so an update can be taken back (`updateStats_updateStats`).
-/

namespace CodesSim

open Function

/-- The counters of a category (`mn_stats`). -/
structure MnStats where
  category : String
  sendCount : ℤ
  sendBytes : ℤ
  sendTime : STime
  recvCount : ℤ
  recvBytes : ℤ
  recvTime : STime
  maxEventSize : ℤ
  deriving DecidableEq, Inhabited

/-- The counters without the name and the largest event. -/
def MnStats.counts (st : MnStats) : (ℤ × ℤ × STime) × ℤ × ℤ × STime :=
  ((st.sendCount, st.sendBytes, st.sendTime), st.recvCount, st.recvBytes, st.recvTime)

/-- The figures of a category: everything but its name. -/
def MnStats.figures (st : MnStats) : ((ℤ × ℤ × STime) × ℤ × ℤ × STime) × ℤ :=
  (st.counts, st.maxEventSize)

/-- `CATEGORY_MAX`. -/
def categoryMax : ℕ := 15

/-- An array of counters; the first `categoryMax` slots are there. -/
abbrev StatsArray := ℕ → MnStats

/-- The array after `init`. -/
def StatsArray.init : StatsArray := fun _ => ⟨"", 0, 0, 0, 0, 0, 0, 0⟩

/-- `model_net_find_stats`: the first slot that has the name of the category or none.  `none` is the
failed assertion when all slots are taken. -/
def findStats (stats : StatsArray) (category : String) : Option ℕ :=
  (List.range categoryMax).find? fun i =>
    (stats i).category = "" ∨ (stats i).category = category

/-- Change the slot of a category, which gets its name when it is used for the first time. -/
def updateStats (stats : StatsArray) (category : String) (f : MnStats → MnStats) :
    Option StatsArray :=
  (findStats stats category).map fun i =>
    update stats i { f (stats i) with category := category }

variable {stats : StatsArray} {category : String} {i : ℕ}

/-- A slot is found again. -/
theorem findStats_update (h : findStats stats category = some i) {st : MnStats}
    (hst : st.category = category) : findStats (update stats i st) category = some i := by
  rw [findStats, List.find?_range_eq_some] at h ⊢
  obtain ⟨-, hi, hbefore⟩ := h
  refine ⟨by simp [hst], hi, fun j hj => ?_⟩
  rw [update_of_ne (Nat.ne_of_lt hj)]
  exact hbefore j hj

variable {stats' : StatsArray}

theorem updateStats_eq_some {f : MnStats → MnStats} :
    updateStats stats category f = some stats' ↔ ∃ i, findStats stats category = some i ∧
      stats' = update stats i { f (stats i) with category := category } := by
  simp [updateStats, Option.map_eq_some_iff, eq_comm]

/-- What is said of the slots is the same after an update if it is of the slot that was written. -/
theorem agree_update {γ : Type*} (f : MnStats → γ) (stats : StatsArray) (i : ℕ) {st : MnStats} :
    (∀ j, f (update stats i st j) = f (stats j)) ↔ f st = f (stats i) := by
  constructor
  · intro h
    simpa using h i
  · intro h j
    by_cases hj : j = i
    · rw [hj, update_self, h]
    · rw [update_of_ne hj]

/-! ### Names -/

/-- The array after some categories have been used. -/
def StatsArray.register (stats : StatsArray) (categories : List String) : Option StatsArray :=
  categories.foldlM (fun stats category => updateStats stats category id) stats

theorem StatsArray.register_cons (stats : StatsArray) (category : String)
    (categories : List String) : stats.register (category :: categories) =
      (updateStats stats category id).bind fun stats => stats.register categories := rfl

theorem StatsArray.register_snoc (stats : StatsArray) (categories : List String)
    (category : String) : stats.register (categories ++ [category]) =
      (stats.register categories).bind fun stats => updateStats stats category id := by
  rw [register, List.foldlM_append]
  cases h : categories.foldlM (fun stats category => updateStats stats category id) stats <;>
    simp [register, h]

/-- Categories that find a slot each, in the order in which they are used. -/
def StatsArray.HasRoomFor (stats : StatsArray) (categories : List String) : Prop :=
  stats.register categories ≠ none

theorem StatsArray.HasRoomFor.of_append {pre suf : List String}
    (h : stats.HasRoomFor (pre ++ suf)) : stats.HasRoomFor pre := by
  intro hpre
  refine h ?_
  rw [StatsArray.register] at hpre
  rw [StatsArray.register, List.foldlM_append, hpre]
  rfl

/-- Two arrays have the same names. -/
def StatsArray.SameNames (stats stats' : StatsArray) : Prop :=
  ∀ i, (stats i).category = (stats' i).category

theorem findStats_congr (h : stats.SameNames stats') :
    findStats stats category = findStats stats' category := by
  rw [findStats, findStats]
  congr 1
  funext i
  rw [h i]

theorem StatsArray.SameNames.update (h : stats.SameNames stats') (i : ℕ)
    {st st' : MnStats} (hst : st.category = st'.category) :
    StatsArray.SameNames (update stats i st) (update stats' i st') := by
  intro j
  by_cases hj : j = i
  · rw [hj, update_self, update_self, hst]
  · rw [update_of_ne hj, update_of_ne hj, h j]

end CodesSim
