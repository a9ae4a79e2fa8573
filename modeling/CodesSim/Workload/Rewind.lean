import CodesSim.Lib.Machine
import Mathlib.Data.Int.Notation
import Mathlib.Data.List.Nodup

/-!
# Rewinding a workload

A workload generator hands out the operations of a rank one after the other and cannot go back.  For
rollbacks `codes-workload.c` keeps the operations that were taken back in front of it, one stack for
each application and rank (`rank_queue`): `codes_workload_get_next` takes the newest of them, and
asks the generator only if there is none.

* The generators (`Method`) are parameters.  A generator has one state for all applications and
  ranks; what it makes for one of them need not be independent of what the others ask for
  (`Method.Independent`).  The generator `test` is given, which tells only the ranks apart.
* An operation is whatever the generators make; only its type is looked at, which must not be zero.

`rewind_refines` compares the whole with a stream that can be sought (`Seekable`): a cursor for each
application and rank, which `codes_workload_get_next` moves forth and `codes_workload_get_next_rc`
back.  It needs generators that are independent on what was loaded, as `test` is on different ranks
(`testWorkload_independent`) and is not on one rank of two applications (`sameRank_not_refined`).
-/

namespace CodesSim.Workload

open Function

variable {σ Op : Type*}

/-- A workload generator (`codes_workload_method`); `σ` is what it keeps. -/
structure Method (σ Op : Type*) where
  methodName : String
  /-- `codes_workload_load`; nothing if it returns a negative number. -/
  load : ℤ → ℤ → σ → Option σ
  getNext : ℤ → ℤ → σ → Op × σ

/-- The reversed operations of a rank (`rank_queue`), the newest first. -/
structure RankQueue (Op : Type*) where
  app : ℤ
  rank : ℤ
  lifo : List Op

/-- What the workload interface keeps: the list `ranks` and the states of the generators, by the
number of the method.  `reads` records what the generators were asked for. -/
structure Workloads (σ Op : Type*) where
  ranks : List (RankQueue Op)
  gens : ℕ → σ
  reads : List ((ℤ × ℤ) × Op)

/-- Nothing is loaded; `gens` are the generators at the start. -/
def Workloads.empty (gens : ℕ → σ) : Workloads σ Op := ⟨[], gens, []⟩

/-- The search through `ranks`. -/
def findQueue (p : ℤ × ℤ) (ranks : List (RankQueue Op)) : Option (RankQueue Op) :=
  ranks.find? fun q => q.rank = p.2 ∧ q.app = p.1

/-- The queue that the search finds gets other operations. -/
def setLifo (p : ℤ × ℤ) (lifo : List Op) : List (RankQueue Op) → List (RankQueue Op)
  | [] => []
  | q :: ranks =>
    if q.rank = p.2 ∧ q.app = p.1 then { q with lifo := lifo } :: ranks
    else q :: setLifo p lifo ranks

/-- `codes_workload_load`, with the number of the method. -/
def codesWorkloadLoad (methods : List (Method σ Op)) (type : String) (p : ℤ × ℤ)
    (w : Workloads σ Op) : Option (ℕ × Workloads σ Op) :=
  match methods.findIdx? fun m => m.methodName = type with
  | none => none
  | some i => (methods[i]?.bind fun m => m.load p.1 p.2 (w.gens i)).map fun s =>
    (i, { w with
      gens := update w.gens i s
      ranks := if (findQueue p w.ranks).isSome then w.ranks else ⟨p.1, p.2, []⟩ :: w.ranks })

/-- Ask the generator. -/
def Workloads.ask (methods : List (Method σ Op)) (opType : Op → ℕ) (wkldId : ℕ) (p : ℤ × ℤ)
    (w : Workloads σ Op) : Option (Op × Workloads σ Op) :=
  methods[wkldId]?.bind fun m =>
    let r := m.getNext p.1 p.2 (w.gens wkldId)
    if opType r.1 = 0 then none
    else some (r.1, { w with
      gens := update w.gens wkldId r.2
      reads := w.reads ++ [(p, r.1)] })

/-- `codes_workload_get_next`. -/
def codesWorkloadGetNext (methods : List (Method σ Op)) (opType : Op → ℕ) (wkldId : ℕ) (p : ℤ × ℤ)
    (w : Workloads σ Op) : Option (Op × Workloads σ Op) :=
  match findQueue p w.ranks with
  | none => none
  | some q =>
    match q.lifo with
    | op :: rest => some (op, { w with ranks := setLifo p rest w.ranks })
    | [] => w.ask methods opType wkldId p

/-- `codes_workload_get_next_rc`. -/
def codesWorkloadGetNextRc (p : ℤ × ℤ) (op : Op) (w : Workloads σ Op) : Option (Workloads σ Op) :=
  (findQueue p w.ranks).map fun q => { w with ranks := setLifo p (op :: q.lifo) w.ranks }

/-- Load workloads for applications and ranks; each gets the number of its method. -/
def loadAll (methods : List (Method σ Op)) :
    List (String × (ℤ × ℤ)) → Workloads σ Op → Option (List ((ℤ × ℤ) × ℕ) × Workloads σ Op)
  | [], w => some ([], w)
  | l :: ls, w => (codesWorkloadLoad methods l.1 l.2 w).bind fun r =>
      (loadAll methods ls r.2).map fun r' => ((l.2, r.1) :: r'.1, r'.2)

/-! ### The callers -/

/-- A call. -/
inductive Call (Op : Type*) where
  | next (wkldId : ℕ) (p : ℤ × ℤ)
  | rc (p : ℤ × ℤ) (op : Op)

/-- The interface with its callers: who has operations that were not taken back, the oldest first,
and all deliveries. -/
structure Callers (σ Op : Type*) where
  w : Workloads σ Op
  held : ℤ × ℤ → List Op
  outs : List ((ℤ × ℤ) × Op)

/-- Nothing was delivered. -/
def Callers.init (w : Workloads σ Op) : Callers σ Op := ⟨w, fun _ => [], []⟩

/-- The callers of the interface. -/
def callers (methods : List (Method σ Op)) (opType : Op → ℕ) :
    Machine (Callers σ Op) (Call Op) where
  step s
    | .next wkldId p => (codesWorkloadGetNext methods opType wkldId p s.w).map fun r =>
      ⟨r.2, update s.held p (s.held p ++ [r.1]), s.outs ++ [(p, r.1)]⟩
    | .rc p op => (codesWorkloadGetNextRc p op s.w).map fun w =>
      ⟨w, update s.held p (s.held p).dropLast, s.outs⟩

/-- The calls are for what was loaded, and what is taken back is the newest operation that was not
taken back. -/
def Permitted (ids : List ((ℤ × ℤ) × ℕ)) (s : Callers σ Op) : Call Op → Prop
  | .next wkldId p => (p, wkldId) ∈ ids
  | .rc p op => (∃ i, (p, i) ∈ ids) ∧ (s.held p).getLast? = some op

instance [DecidableEq Op] (ids : List ((ℤ × ℤ) × ℕ)) (s : Callers σ Op) :
    ∀ c, Decidable (Permitted ids s c)
  | .next wkldId p => inferInstanceAs (Decidable ((p, wkldId) ∈ ids))
  | .rc p op => decidable_of_iff (p ∈ ids.map Prod.fst ∧ (s.held p).getLast? = some op)
      (by simp [Permitted])

/-! ### A stream that can be sought -/

/-- Cursors in streams, how far each has been, and what was read. -/
structure Seekable (Op : Type*) where
  cursor : ℤ × ℤ → ℕ
  high : ℤ × ℤ → ℕ
  outs : List ((ℤ × ℤ) × Op)

/-- All cursors are at the beginning. -/
def Seekable.init : Seekable Op := ⟨fun _ => 0, fun _ => 0, []⟩

/-- Reading moves a cursor forth, taking back moves it back. -/
def Seekable.call (stream : ℤ × ℤ → ℕ → Op) (a : Seekable Op) : Call Op → Seekable Op
  | .next _ p =>
    { cursor := update a.cursor p (a.cursor p + 1)
      high := update a.high p (max (a.high p) (a.cursor p + 1))
      outs := a.outs ++ [(p, stream p (a.cursor p))] }
  | .rc p _ => { a with cursor := update a.cursor p (a.cursor p - 1) }

namespace Method

variable (m : Method σ Op)

/-- The state of a generator after it was asked for these applications and ranks. -/
def after (s : σ) (calls : List (ℤ × ℤ)) : σ := calls.foldl (fun s p => (m.getNext p.1 p.2 s).2) s

/-- The operations that a generator in the state `s` makes for one application and rank. -/
def stream (p : ℤ × ℤ) (s : σ) (n : ℕ) : Op :=
  (m.getNext p.1 p.2 (m.after s (List.replicate n p))).1

/-- **Independence.**  From the state `s` on, what the generator makes for one of the `pairs` does
not depend on what the others have asked for. -/
def Independent (pairs : Set (ℤ × ℤ)) (s : σ) : Prop :=
  ∀ calls : List (ℤ × ℤ), (∀ p ∈ calls, p ∈ pairs) → ∀ p ∈ pairs, ∀ p' ∈ pairs, p' ≠ p →
    m.stream p' (m.getNext p.1 p.2 (m.after s calls)).2 = m.stream p' (m.after s calls)

variable {m}

theorem after_snoc (s : σ) (calls : List (ℤ × ℤ)) (p : ℤ × ℤ) :
    m.after s (calls ++ [p]) = (m.getNext p.1 p.2 (m.after s calls)).2 := by
  rw [after, List.foldl_append]
  rfl

/-- One operation less is to come. -/
theorem stream_getNext (p : ℤ × ℤ) (s : σ) (n : ℕ) :
    m.stream p (m.getNext p.1 p.2 s).2 n = m.stream p s (n + 1) := rfl

end Method

/-! ### The generator `test` -/

/-- The operations of the generator `test`. -/
inductive TestOp where
  | wkEnd
  | wkDelay (seconds : ℤ)
  | wkBarrier (count root : ℤ)
  | wkOpen (fileId : ℤ) (createFlag : Bool)
  deriving DecidableEq

/-- `op_type`. -/
def TestOp.opType : TestOp → ℕ
  | .wkEnd => 1
  | .wkDelay _ => 2
  | .wkBarrier .. => 3
  | .wkOpen .. => 4

/-- The operations left for a rank (`wkload_stream_state`). -/
structure WkloadStreamState where
  rank : ℤ
  opArray : List TestOp
  opArrayIndex : ℕ

/-- `test_workload_load`. -/
def testWorkloadLoad (rank : ℤ) (wkloadStreams : List WkloadStreamState) :
    List WkloadStreamState :=
  let opArray : List TestOp :=
    if rank = 0 then [.wkDelay 43, .wkOpen 3 true, .wkBarrier (-1) 0]
    else [.wkOpen 3 true, .wkBarrier (-1) 0]
  ⟨rank, opArray, 0⟩ :: wkloadStreams

/-- `test_workload_get_next`: the first stream of the rank, which is destroyed at its end. -/
def testWorkloadGetNext (rank : ℤ) : List WkloadStreamState → TestOp × List WkloadStreamState
  | [] => (.wkEnd, [])
  | t :: wkloadStreams =>
    if t.rank = rank then
      match t.opArray[t.opArrayIndex]? with
      | some op => (op, { t with opArrayIndex := t.opArrayIndex + 1 } :: wkloadStreams)
      | none => (.wkEnd, wkloadStreams)
    else
      let r := testWorkloadGetNext rank wkloadStreams
      (r.1, t :: r.2)

/-- `test_workload_method`. -/
def testWorkloadMethod : Method (List WkloadStreamState) TestOp where
  methodName := "test"
  load _ rank s := some (testWorkloadLoad rank s)
  getNext _ rank s := testWorkloadGetNext rank s

section Test

variable {s : List WkloadStreamState} {rank rank' : ℤ}

/-- The streams of a rank. -/
def streamsOf (rank : ℤ) (s : List WkloadStreamState) : List WkloadStreamState :=
  s.filter fun t => t.rank = rank

theorem streamsOf_cons (t : WkloadStreamState) : streamsOf rank (t :: s) =
    if t.rank = rank then t :: streamsOf rank s else streamsOf rank s := by
  rw [streamsOf, List.filter_cons]
  split_ifs <;> simp_all [streamsOf]

/-- What a rank is given depends on its own streams only. -/
theorem testWorkloadGetNext_streamsOf (rank : ℤ) (s : List WkloadStreamState) :
    (testWorkloadGetNext rank s).1 = (testWorkloadGetNext rank (streamsOf rank s)).1 ∧
      streamsOf rank (testWorkloadGetNext rank s).2 =
        (testWorkloadGetNext rank (streamsOf rank s)).2 := by
  induction s with
  | nil => exact ⟨rfl, rfl⟩
  | cons t s ih =>
    by_cases ht : t.rank = rank
    · rw [streamsOf_cons, if_pos ht, testWorkloadGetNext, testWorkloadGetNext, if_pos ht, if_pos ht]
      cases t.opArray[t.opArrayIndex]? with
      | none => exact ⟨rfl, rfl⟩
      | some op => exact ⟨rfl, by simp only [streamsOf_cons, if_pos ht]⟩
    · rw [streamsOf_cons, if_neg ht, testWorkloadGetNext, if_neg ht]
      simp only [streamsOf_cons, if_neg ht]
      exact ih

/-- The streams of other ranks stay as they are. -/
theorem streamsOf_testWorkloadGetNext (h : rank' ≠ rank) :
    streamsOf rank' (testWorkloadGetNext rank s).2 = streamsOf rank' s := by
  induction s with
  | nil => rfl
  | cons t s ih =>
    rw [testWorkloadGetNext]
    by_cases ht : t.rank = rank
    · have hne : t.rank ≠ rank' := fun h' => h (h'.symm.trans ht)
      rw [if_pos ht]
      cases t.opArray[t.opArrayIndex]? with
      | none => rw [streamsOf_cons, if_neg hne]
      | some op => rw [streamsOf_cons, streamsOf_cons, if_neg hne, if_neg hne]
    · rw [if_neg ht]
      simp only [streamsOf_cons, ih]

theorem stream_streamsOf (p : ℤ × ℤ) (s : List WkloadStreamState) (n : ℕ) :
    testWorkloadMethod.stream p s n = testWorkloadMethod.stream p (streamsOf p.2 s) n := by
  induction n generalizing s with
  | zero => exact (testWorkloadGetNext_streamsOf p.2 s).1
  | succ n ih =>
    have hnext : streamsOf p.2 (testWorkloadGetNext p.2 (streamsOf p.2 s)).2 =
        streamsOf p.2 (testWorkloadGetNext p.2 s).2 := by
      rw [← (testWorkloadGetNext_streamsOf p.2 s).2, streamsOf, streamsOf, List.filter_filter]
      simp
    rw [← Method.stream_getNext, ← Method.stream_getNext, ih, ih (testWorkloadMethod.getNext ..).2]
    exact congrArg (testWorkloadMethod.stream p · n) hnext.symm

/-- **The generator `test` is independent on different ranks.** -/
theorem testWorkload_independent {pairs : Set (ℤ × ℤ)}
    (h : ∀ p ∈ pairs, ∀ p' ∈ pairs, p' ≠ p → p'.2 ≠ p.2) (s : List WkloadStreamState) :
    testWorkloadMethod.Independent pairs s := by
  intro calls _ p hp p' hp' hne
  funext n
  rw [stream_streamsOf, stream_streamsOf p' (testWorkloadMethod.after s calls)]
  exact congrArg (testWorkloadMethod.stream p' · n)
    (streamsOf_testWorkloadGetNext (h p hp p' hp' hne))

end Test

/-! ### The list of queues -/

section Queues

variable {p : ℤ × ℤ} {ranks : List (RankQueue Op)} {lifo : List Op}

/-- The reversed operations of a rank. -/
def lifoOf (p : ℤ × ℤ) (ranks : List (RankQueue Op)) : Option (List Op) :=
  (findQueue p ranks).map RankQueue.lifo

theorem lifoOf_cons (q : RankQueue Op) :
    lifoOf p (q :: ranks) = if (q.app, q.rank) = p then some q.lifo else lifoOf p ranks := by
  have hiff : (q.app, q.rank) = p ↔ q.rank = p.2 ∧ q.app = p.1 := by
    rw [Prod.ext_iff, and_comm]
  simp only [lifoOf, findQueue, List.find?_cons, hiff]
  by_cases hq : q.rank = p.2 ∧ q.app = p.1
  · simp [hq]
  · simp [hq]

theorem setLifo_cons (q : RankQueue Op) : setLifo p lifo (q :: ranks) =
    if (q.app, q.rank) = p then { q with lifo := lifo } :: ranks else q ::
    setLifo p lifo ranks := by
  have hiff : (q.app, q.rank) = p ↔ q.rank = p.2 ∧ q.app = p.1 := by
    rw [Prod.ext_iff, and_comm]
  simp only [setLifo, hiff]

theorem lifoOf_setLifo (h : (lifoOf p ranks).isSome) (lifo : List Op) (p' : ℤ × ℤ) :
    lifoOf p' (setLifo p lifo ranks) = if p' = p then some lifo else lifoOf p' ranks := by
  induction ranks with
  | nil => cases h
  | cons q ranks ih =>
    rw [lifoOf_cons] at h
    rw [setLifo_cons, lifoOf_cons]
    split_ifs at h with hq
    · rw [if_pos hq, lifoOf_cons]
      subst hq
      by_cases hp : p' = (q.app, q.rank)
      · rw [if_pos hp, if_pos hp.symm]
      · rw [if_neg hp, if_neg fun he => hp he.symm, if_neg fun he => hp he.symm]
    · rw [if_neg hq, lifoOf_cons, ih h]
      by_cases hp : p' = p
      · subst hp
        rw [if_neg hq, if_pos rfl, if_pos rfl]
      · simp only [if_neg hp]

end Queues

/-! ### Loading -/
variable {loads : List (String × (ℤ × ℤ))}


section Loading

variable {methods : List (Method σ Op)} {w w' : Workloads σ Op} {ids : List ((ℤ × ℤ) × ℕ)}

/-- What was loaded has a generator and nothing reversed. -/
structure Fresh (methods : List (Method σ Op)) (w : Workloads σ Op) (p : ℤ × ℤ) (i : ℕ) : Prop where
  gen : ∃ m, methods[i]? = some m
  lifo : lifoOf p w.ranks = some []

theorem load_spec {type : String} {p : ℤ × ℤ} {i : ℕ}
    (h : codesWorkloadLoad methods type p w = some (i, w')) :
    (∀ p', lifoOf p' w'.ranks = if p' = p then some ((lifoOf p w.ranks).getD [])
      else lifoOf p' w.ranks) ∧
    (∃ m, methods[i]? = some m) ∧ w'.reads = w.reads := by
  rw [codesWorkloadLoad] at h
  cases hi : methods.findIdx? fun m => m.methodName = type with
  | none =>
    rw [hi] at h
    cases h
  | some i' =>
    rw [hi] at h
    obtain ⟨s, hs, heq⟩ := Option.map_eq_some_iff.1 h
    cases heq
    obtain ⟨m, hm, -⟩ := Option.bind_eq_some_iff.1 hs
    refine ⟨fun p' => ?_, ⟨m, hm⟩, rfl⟩
    have hsome : (lifoOf p w.ranks).isSome = (findQueue p w.ranks).isSome := Option.isSome_map
    simp only
    by_cases hq : (findQueue p w.ranks).isSome
    · rw [if_pos hq]
      split_ifs with hp
      · subst hp
        obtain ⟨lifo, hlifo⟩ := Option.isSome_iff_exists.1 (hsome.trans hq)
        rw [hlifo, Option.getD_some]
      · rfl
    · rw [if_neg hq, lifoOf_cons]
      have hnone : lifoOf p w.ranks = none := by
        rw [← Option.not_isSome_iff_eq_none, hsome]
        exact hq
      simp only [hnone, Option.getD_none, eq_comm (a := (p.1, p.2))]

theorem loadAll_spec (h : loadAll methods loads w = some (ids, w'))
    (hw : ∀ p, lifoOf p w.ranks = none ∨ lifoOf p w.ranks = some []) :
    (∀ x ∈ ids, Fresh methods w' x.1 x.2) ∧ w'.reads = w.reads ∧
      ∀ p, lifoOf p w.ranks = some [] → lifoOf p w'.ranks = some [] := by
  induction loads generalizing w ids with
  | nil =>
    cases h
    exact ⟨by simp, rfl, fun _ hp => hp⟩
  | cons l loads ih =>
    obtain ⟨⟨i, w₁⟩, h₁, hrest⟩ := Option.bind_eq_some_iff.1 h
    obtain ⟨⟨ids', w₂⟩, h₂, heq⟩ := Option.map_eq_some_iff.1 hrest
    cases heq
    obtain ⟨hlifo, hm, hreads⟩ := load_spec h₁
    have hfirst : lifoOf l.2 w₁.ranks = some [] := by
      rw [hlifo, if_pos rfl]
      obtain hnone | hnil := hw l.2
      · rw [hnone, Option.getD_none]
      · rw [hnil, Option.getD_some]
    have hother : ∀ p, p ≠ l.2 → lifoOf p w₁.ranks = lifoOf p w.ranks := fun p hp => by
      rw [hlifo, if_neg hp]
    obtain ⟨hfresh, hreads', hkeep⟩ := ih h₂ fun p => by
      by_cases hp : p = l.2
      · exact .inr (hp ▸ hfirst)
      · rw [hother p hp]
        exact hw p
    refine ⟨fun x hx => ?_, hreads'.trans hreads, fun p hp => hkeep p ?_⟩
    · obtain rfl | hx := List.mem_cons.1 hx
      · exact ⟨hm, hkeep _ hfirst⟩
      · exact hfresh x hx
    · by_cases hpl : p = l.2
      · exact hpl ▸ hfirst
      · rw [hother p hpl, hp]

end Loading

/-! ### Refinement -/

section Refinement

variable {methods : List (Method σ Op)} {opType : Op → ℕ} {ids : List ((ℤ × ℤ) × ℕ)}
  {stream : ℤ × ℤ → ℕ → Op} {w : Workloads σ Op} {s s' : Callers σ Op} {a : Seekable Op}

/-- **The relation for one rank**: its caller holds what is before the cursor, what is between the
cursor and the farthest point was taken back, and what the generator makes next is what follows the
farthest point. -/
structure Behind (methods : List (Method σ Op)) (stream : ℤ × ℤ → ℕ → Op) (s : Callers σ Op)
    (a : Seekable Op) (p : ℤ × ℤ) (i : ℕ) : Prop where
  le : a.cursor p ≤ a.high p
  held : s.held p = (List.range (a.cursor p)).map (stream p)
  lifo : lifoOf p s.w.ranks =
    some ((List.range' (a.cursor p) (a.high p - a.cursor p)).map (stream p))
  gen : ∃ m, methods[i]? = some m ∧ ∀ n, m.stream p (s.w.gens i) n = stream p (a.high p + n)
  reads : (s.w.reads.filter fun r => r.1 = p).map Prod.snd = (List.range (a.high p)).map (stream p)

/-- The interface is what the stream says; `w` is the interface after loading. -/
structure Simulates (methods : List (Method σ Op)) (ids : List ((ℤ × ℤ) × ℕ)) (w : Workloads σ Op)
    (stream : ℤ × ℤ → ℕ → Op) (s : Callers σ Op) (a : Seekable Op) : Prop where
  behind : ∀ x ∈ ids, Behind methods stream s a x.1 x.2
  /-- A generator was asked only for what was loaded from it. -/
  reached : ∀ (i : ℕ) (m : Method σ Op), methods[i]? = some m → ∃ calls : List (ℤ × ℤ),
    (∀ p ∈ calls, (p, i) ∈ ids) ∧ s.w.gens i = m.after (w.gens i) calls
  outs : s.outs = a.outs

theorem Behind.congr {a' : Seekable Op} {p : ℤ × ℤ} {i : ℕ} (h : Behind methods stream s a p i)
    (hcursor : a'.cursor p = a.cursor p) (hhigh : a'.high p = a.high p)
    (hheld : s'.held p = s.held p)
    (hlifo : lifoOf p s'.w.ranks = lifoOf p s.w.ranks)
    (hgens : ∀ m, methods[i]? = some m → m.stream p (s'.w.gens i) = m.stream p (s.w.gens i))
    (hreads : (s'.w.reads.filter fun r => r.1 = p) = s.w.reads.filter fun r => r.1 = p) :
    Behind methods stream s' a' p i := by
  obtain ⟨hle, hheld₀, hlifo₀, hgen₀, hreads₀⟩ := h
  constructor
  · rw [hcursor, hhigh]
    exact hle
  · rw [hheld, hcursor, hheld₀]
  · rw [hlifo, hcursor, hhigh, hlifo₀]
  · obtain ⟨m, hm, hgen⟩ := hgen₀
    exact ⟨m, hm, fun n => by rw [hgens m hm, hhigh, hgen]⟩
  · rw [hreads, hhigh, hreads₀]

theorem findQueue_of_lifoOf {p : ℤ × ℤ} {ranks : List (RankQueue Op)} {lifo : List Op}
    (h : lifoOf p ranks = some lifo) : ∃ q, findQueue p ranks = some q ∧ q.lifo = lifo :=
  Option.map_eq_some_iff.1 h

/-- **Reading** an operation: one that was taken back if there is one, else a new one. -/
theorem Simulates.next (hnodup : (ids.map Prod.fst).Nodup)
    (hindep : ∀ (i : ℕ) (m : Method σ Op), methods[i]? = some m →
      m.Independent {p | (p, i) ∈ ids} (w.gens i))
    (htyped : ∀ x ∈ ids, ∀ n, opType (stream x.1 n) ≠ 0) (h : Simulates methods ids w stream s a)
    {wkldId : ℕ} {p : ℤ × ℤ} (hp : (p, wkldId) ∈ ids) :
    ∃ s', (callers methods opType).step s (.next wkldId p) = some s' ∧
      Simulates methods ids w stream s' (a.call stream (.next wkldId p)) := by
  have hb : Behind methods stream s a p wkldId := h.behind _ hp
  obtain ⟨q, hq, hlifo⟩ := findQueue_of_lifoOf hb.lifo
  have hheld : s.held p ++ [stream p (a.cursor p)] = (List.range (a.cursor p + 1)).map
    (stream p) := by
    rw [hb.held, List.range_succ, List.map_append, List.map_singleton]
  have hid : ∀ x ∈ ids, x.1 = p → x = (p, wkldId) := fun x hx hxp =>
    List.inj_on_of_nodup_map hnodup hx hp hxp
  obtain hlt | heq := Nat.lt_or_eq_of_le hb.le
  · -- one that was taken back
    have hcons : q.lifo = stream p (a.cursor p) ::
        (List.range' (a.cursor p + 1) (a.high p - (a.cursor p + 1))).map (stream p) := by
      rw [hlifo, show a.high p - a.cursor p = a.high p - (a.cursor p + 1) + 1 by omega,
        List.range'_succ, List.map_cons]
    have hget : codesWorkloadGetNext methods opType wkldId p s.w = some (stream p (a.cursor p),
        { s.w with ranks := setLifo p ((List.range' (a.cursor p + 1)
          (a.high p - (a.cursor p + 1))).map (stream p)) s.w.ranks }) := by
      simp only [codesWorkloadGetNext, hq, hcons]
    have hset := lifoOf_setLifo (Option.isSome_of_eq_some hb.lifo)
      ((List.range' (a.cursor p + 1) (a.high p - (a.cursor p + 1))).map (stream p))
    refine ⟨⟨{ s.w with ranks := setLifo p ((List.range' (a.cursor p + 1)
        (a.high p - (a.cursor p + 1))).map (stream p)) s.w.ranks },
      update s.held p (s.held p ++ [stream p (a.cursor p)]),
      s.outs ++ [(p, stream p (a.cursor p))]⟩, ?_, fun x hx => ?_, h.reached, ?_⟩
    · simp only [callers, hget, Option.map_some]
    · by_cases hxp : x.1 = p
      · obtain rfl := hid x hx hxp
        have hmax : max (a.high p) (a.cursor p + 1) = a.high p := by omega
        refine ⟨?_, ?_, ?_, ?_, ?_⟩ <;> simp only [Seekable.call, update_self, hmax]
        · omega
        · exact hheld
        · rw [hset, if_pos rfl]
        · exact hb.gen
        · exact hb.reads
      · refine (h.behind x hx).congr ?_ ?_ ?_ ?_ (fun _ _ => rfl) rfl
        · exact update_of_ne hxp ..
        · exact update_of_ne hxp ..
        · exact update_of_ne hxp ..
        · exact (hset x.1).trans (if_neg hxp)
    · simp only [Seekable.call, h.outs]
  · -- the generator is asked
    have hnil : q.lifo = [] := by
      rw [hlifo, heq, Nat.sub_self]
      rfl
    obtain ⟨m, hm, hgen⟩ := hb.gen
    have hop : (m.getNext p.1 p.2 (s.w.gens wkldId)).1 = stream p (a.high p) := hgen 0
    have hask : codesWorkloadGetNext methods opType wkldId p s.w = some (stream p (a.high p),
        { s.w with
          gens := update s.w.gens wkldId (m.getNext p.1 p.2 (s.w.gens wkldId)).2
          reads := s.w.reads ++ [(p, stream p (a.high p))] }) := by
      simp only [codesWorkloadGetNext, hq, hnil, Workloads.ask, hm, Option.bind_some, hop,
        if_neg (htyped _ hp (a.high p))]
    refine ⟨⟨{ s.w with
        gens := update s.w.gens wkldId (m.getNext p.1 p.2 (s.w.gens wkldId)).2
        reads := s.w.reads ++ [(p, stream p (a.high p))] },
      update s.held p (s.held p ++ [stream p (a.high p)]),
      s.outs ++ [(p, stream p (a.high p))]⟩, ?_, fun x hx => ?_, fun i m' hm' => ?_, ?_⟩
    · simp only [callers, hask, Option.map_some]
    · by_cases hxp : x.1 = p
      · obtain rfl := hid x hx hxp
        have hmax : max (a.high p) (a.high p + 1) = a.high p + 1 := by omega
        refine ⟨?_, ?_, ?_, ⟨m, hm, fun n => ?_⟩, ?_⟩ <;>
          simp only [Seekable.call, update_self, heq, hmax]
        · omega
        · rw [← heq]
          exact hheld
        · rw [hb.lifo, heq, Nat.sub_self, Nat.sub_self]
          rfl
        · rw [Method.stream_getNext, hgen, Nat.add_assoc, Nat.add_comm 1]
        · rw [List.filter_append, List.map_append, hb.reads, List.range_succ, List.map_append]
          simp
      · refine (h.behind x hx).congr ?_ ?_ ?_ rfl (fun m' hm' => ?_) ?_
        · exact update_of_ne hxp ..
        · exact update_of_ne hxp ..
        · exact update_of_ne hxp ..
        · simp only
          rw [update_apply]
          split_ifs with hi
          · -- another pair of the same generator
            rw [hi, hm] at hm'
            cases hm'
            obtain ⟨calls, hcalls, hstate⟩ := h.reached wkldId m hm
            rw [hi, hstate]
            exact hindep wkldId m hm calls hcalls p hp x.1 (hi ▸ hx) hxp
          · rfl
        · simp [Ne.symm hxp]
    · by_cases hi : i = wkldId
      · rw [hi, hm] at hm'
        cases hm'
        obtain ⟨calls, hcalls, hstate⟩ := h.reached wkldId m hm
        refine ⟨calls ++ [p], ?_, ?_⟩
        · rw [hi]
          exact List.forall_mem_append.2 ⟨hcalls, List.forall_mem_singleton.2 hp⟩
        · rw [hi, Method.after_snoc, ← hstate]
          exact update_self ..
      · obtain ⟨calls, hcalls, hstate⟩ := h.reached i m' hm'
        exact ⟨calls, hcalls, (update_of_ne hi ..).trans hstate⟩
    · simp only [Seekable.call, h.outs, heq]

/-- **Taking back** an operation. -/
theorem Simulates.rc (hnodup : (ids.map Prod.fst).Nodup) (h : Simulates methods ids w stream s a)
    {p : ℤ × ℤ} {op : Op} (hp : Permitted ids s (.rc p op)) :
    ∃ s', (callers methods opType).step s (.rc p op) = some s' ∧
      Simulates methods ids w stream s' (a.call stream (.rc p op)) := by
  obtain ⟨⟨i, hi⟩, hlast⟩ := hp
  have hb : Behind methods stream s a p i := h.behind _ hi
  obtain ⟨q, hq, hlifo⟩ := findQueue_of_lifoOf hb.lifo
  have hid : ∀ x ∈ ids, x.1 = p → x = (p, i) := fun x hx hxp =>
    List.inj_on_of_nodup_map hnodup hx hi hxp
  -- what is taken back is the operation before the cursor
  obtain ⟨n, hn, rfl⟩ : ∃ n, a.cursor p = n + 1 ∧ op = stream p n := by
    rw [hb.held] at hlast
    cases hcursor : a.cursor p with
    | zero =>
      rw [hcursor] at hlast
      cases hlast
    | succ n =>
      rw [hcursor, List.range_succ, List.map_append, List.map_singleton,
        List.getLast?_concat] at hlast
      exact ⟨n, rfl, (Option.some.inj hlast).symm⟩
  have hle := hb.le
  have hcons : stream p n :: q.lifo = (List.range' n (a.high p - n)).map (stream p) := by
    rw [hlifo, hn, show a.high p - n = a.high p - (n + 1) + 1 by omega, List.range'_succ,
      List.map_cons]
  have hset := lifoOf_setLifo (Option.isSome_of_eq_some hb.lifo) (stream p n :: q.lifo)
  refine ⟨⟨{ s.w with ranks := setLifo p (stream p n :: q.lifo) s.w.ranks },
    update s.held p (s.held p).dropLast, s.outs⟩, ?_, fun x hx => ?_, h.reached, h.outs⟩
  · simp only [callers, codesWorkloadGetNextRc, hq, Option.map_some]
  · by_cases hxp : x.1 = p
    · obtain rfl := hid x hx hxp
      refine ⟨?_, ?_, ?_, hb.gen, hb.reads⟩ <;>
        simp only [Seekable.call, update_self, hn, Nat.add_sub_cancel]
      · omega
      · rw [hb.held, hn, List.range_succ, List.map_append, List.map_singleton, List.dropLast_concat]
      · rw [hset, if_pos rfl, hcons]
    · refine (h.behind x hx).congr ?_ rfl ?_ ?_ (fun _ _ => rfl) rfl
      · exact update_of_ne hxp ..
      · exact update_of_ne hxp ..
      · exact (hset x.1).trans (if_neg hxp)

theorem Simulates.init {gens : ℕ → σ} (hload : loadAll methods loads (.empty gens) = some (ids, w))
    (hstream : ∀ x ∈ ids, ∀ m, methods[x.2]? = some m →
      ∀ n, stream x.1 n = m.stream x.1 (w.gens x.2) n) :
    Simulates methods ids w stream (Callers.init w) Seekable.init := by
  obtain ⟨hfresh, hreads, -⟩ := loadAll_spec hload fun p => .inl rfl
  refine ⟨fun x hx => ?_, fun i m _ => ⟨[], by simp, rfl⟩, rfl⟩
  obtain ⟨⟨m, hm⟩, hlifo⟩ := hfresh x hx
  refine ⟨Nat.le_refl _, rfl, hlifo, ⟨m, hm, fun n => ?_⟩, ?_⟩
  · exact (hstream x hx m hm n).symm.trans (congrArg (stream x.1) (Nat.zero_add n).symm)
  · simp only [Callers.init, hreads]
    rfl

/-- **The interface refines streams that can be sought**, if what a generator makes for one of the
applications and ranks loaded from it is independent of the others.  Every interleaving of calls
delivers what the streams deliver, and of each loaded application and rank the generator was asked
once for each operation up to the farthest point of the cursor, in order. -/
theorem rewind_refines {loads : List (String × (ℤ × ℤ))} {gens : ℕ → σ}
    (hload : loadAll methods loads (.empty gens) = some (ids, w))
    (hnodup : (ids.map Prod.fst).Nodup)
    (hindep : ∀ (i : ℕ) (m : Method σ Op), methods[i]? = some m →
      m.Independent {p | (p, i) ∈ ids} (w.gens i))
    (hstream : ∀ x ∈ ids, ∀ m, methods[x.2]? = some m →
      ∀ n, stream x.1 n = m.stream x.1 (w.gens x.2) n)
    (htyped : ∀ x ∈ ids, ∀ n, opType (stream x.1 n) ≠ 0) {cs : List (Call Op)}
    (hcs : (callers methods opType).Meets (Permitted ids) (Callers.init w) cs) :
    ∃ s, (callers methods opType).run (Callers.init w) cs = some s ∧
      s.outs = (cs.foldl (Seekable.call stream) .init).outs ∧
      ∀ x ∈ ids, (s.w.reads.filter fun r => r.1 = x.1).map Prod.snd =
        (List.range ((cs.foldl (Seekable.call stream) .init).high x.1)).map (stream x.1) := by
  have hrun : ∀ (s : Callers σ Op) (a : Seekable Op), Simulates methods ids w stream s a →
      (callers methods opType).Meets (Permitted ids) s cs →
      ∃ s', (callers methods opType).run s cs = some s' ∧
        Simulates methods ids w stream s' (cs.foldl (Seekable.call stream) a) := by
    clear hcs
    induction cs with
    | nil => exact fun s a h _ => ⟨s, rfl, h⟩
    | cons c cs ih =>
      intro s a h hmeets
      obtain ⟨s₁, h₁, hsim⟩ : ∃ s₁, (callers methods opType).step s c = some s₁ ∧
          Simulates methods ids w stream s₁ (a.call stream c) := by
        cases c with
        | next wkldId p => exact h.next hnodup hindep htyped hmeets.1
        | rc p op => exact h.rc hnodup hmeets.1
      obtain ⟨s₂, h₂, hsim'⟩ := ih s₁ _ hsim (hmeets.2 s₁ h₁)
      exact ⟨s₂, Machine.run_cons_eq_some.2 ⟨s₁, h₁, h₂⟩, hsim'⟩
  obtain ⟨s, hs, hsim⟩ := hrun _ _ (Simulates.init hload hstream) hcs
  exact ⟨s, hs, hsim.outs, fun x hx => (hsim.behind x hx).reads⟩

end Refinement

/-- The generator `test` with these applications and ranks loaded. -/
def testLoaded (pairs : List (ℤ × ℤ)) :
    Option (List ((ℤ × ℤ) × ℕ) × Workloads (List WkloadStreamState) TestOp) :=
  loadAll [testWorkloadMethod] (pairs.map fun p => ("test", p)) (.empty fun _ => [])

/-- Two ranks that read and take back. -/
def twoRanks : List (Call TestOp) :=
  [.next 0 (0, 0), .next 0 (0, 1), .next 0 (0, 0), .rc (0, 0) (.wkOpen 3 true),
    .rc (0, 0) (.wkDelay 43), .next 0 (0, 1), .next 0 (0, 0), .next 0 (0, 0), .next 0 (0, 0)]

theorem rewind_refines_twoRanks : ∃ ids w s, testLoaded [(0, 0), (0, 1)] = some (ids, w) ∧
    (callers [testWorkloadMethod] TestOp.opType).run (Callers.init w) twoRanks = some s ∧
    s.outs = (twoRanks.foldl (Seekable.call fun p => testWorkloadMethod.stream p (w.gens 0))
      .init).outs := by
  obtain ⟨ids, w, hload, hids, hmeets⟩ : ∃ ids w, testLoaded [(0, 0), (0, 1)] = some (ids, w) ∧
      ids = [((0, 0), 0), ((0, 1), 0)] ∧
      (callers [testWorkloadMethod] TestOp.opType).Meets (Permitted ids) (Callers.init w)
        twoRanks := ⟨_, _, rfl, rfl, by decide⟩
  have hmethod : ∀ (i : ℕ) (m : Method (List WkloadStreamState) TestOp),
      [testWorkloadMethod][i]? = some m → i = 0 ∧ m = testWorkloadMethod := by
    intro i m hm
    obtain ⟨hi, rfl⟩ := List.getElem?_eq_some_iff.1 hm
    obtain rfl : i = 0 := by simpa using hi
    exact ⟨rfl, rfl⟩
  have hindep : ∀ (i : ℕ) (m : Method (List WkloadStreamState) TestOp),
      [testWorkloadMethod][i]? = some m → m.Independent {p | (p, i) ∈ ids} (w.gens i) := by
    intro i m hm
    obtain ⟨rfl, rfl⟩ := hmethod i m hm
    refine testWorkload_independent (fun p hp p' hp' hne => ?_) _
    change (p, 0) ∈ ids at hp
    change (p', 0) ∈ ids at hp'
    simp only [hids, List.mem_cons, Prod.mk.injEq, and_true, List.not_mem_nil, or_false] at hp hp'
    rcases hp with rfl | rfl <;> rcases hp' with rfl | rfl
    · exact absurd rfl hne
    · decide
    · decide
    · exact absurd rfl hne
  have hstream : ∀ x ∈ ids, ∀ m, [testWorkloadMethod][x.2]? = some m → ∀ n,
      testWorkloadMethod.stream x.1 (w.gens 0) n = m.stream x.1 (w.gens x.2) n := by
    intro x _ m hm n
    obtain ⟨hi, rfl⟩ := hmethod x.2 m hm
    rw [hi]
  have htyped : ∀ op : TestOp, op.opType ≠ 0 := by
    intro op
    cases op <;> exact Nat.succ_ne_zero _
  obtain ⟨s, hs, houts, -⟩ := @rewind_refines _ _ [testWorkloadMethod] TestOp.opType ids
    (fun p => testWorkloadMethod.stream p (w.gens 0)) w _ _ hload (by rw [hids]; decide) hindep
    hstream (fun x _ n => htyped _) _ hmeets
  exact ⟨ids, w, s, hload, hs, houts⟩

/-- The generator `test` with one rank of two applications: both have a stream that begins with a
delay, but what application 1 is given after application 0 is the operation behind it. -/
theorem sameRank_not_refined : ∃ ids w s,
    testLoaded [(0, 0), (1, 0)] = some (ids, w) ∧ (ids.map Prod.fst).Nodup ∧
    (callers [testWorkloadMethod] TestOp.opType).Meets (Permitted ids) (Callers.init w)
      [.next 0 (0, 0), .next 0 (1, 0)] ∧
    (callers [testWorkloadMethod] TestOp.opType).run (Callers.init w)
      [.next 0 (0, 0), .next 0 (1, 0)] = some s ∧
    testWorkloadMethod.stream (1, 0) (w.gens 0) 0 = .wkDelay 43 ∧
    s.outs = [((0, 0), .wkDelay 43), ((1, 0), .wkOpen 3 true)] :=
  ⟨_, _, _, rfl, by decide, by decide, rfl, rfl, rfl⟩

end CodesSim.Workload
