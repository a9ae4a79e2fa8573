import CodesSim.Lib.Machine
import Mathlib.Data.List.Induction
import Mathlib.Order.Lattice

/-!
# The stack for reverse computation

An LP that drops data in an event keeps them on a stack (`rc-stack.c`), so that the reverse of the
event can take them back.  The stack knows the time of each entry: what is older than the global
virtual time (GVT) will not be taken back, and `rc_stack_gc` hands it to its free function.

* The times are any linear order: the times of ROSS or, with the random tie breaker, the signatures
  of its events.
* An operation returns the data that it has freed.  The functions that free are not told apart: an
  entry has one or has none.

`timeWarp_sound` is about an LP that optimistic simulation runs on: events in increasing order that
collect garbage and push, and rollbacks of the last event down to GVT.
-/

namespace CodesSim.RcStack

/-- `tw_synch`, as far as the stack looks at it. -/
inductive Protocol where
  | sequential
  | conservative
  | optimistic
  | optimisticDebug
  | optimisticRealtime
  | sequentialRollbackCheck

/-- `rc_stack_mode`. -/
inductive Mode where
  | nonopt
  | opt
  | optDbg
  | seqRvDbg
  deriving DecidableEq

/-- An entry (`rc_entry`). -/
structure Entry (τ α : Type*) where
  time : τ
  data : α
  /-- There is a free function. -/
  freeFn : Bool

/-- `rc_stack`; the oldest entry comes first. -/
structure Stack (τ α : Type*) where
  count : ℤ
  mode : Mode
  entries : List (Entry τ α)

variable {τ α : Type*}

/-- `rc_stack_create`. -/
def create (protocol : Protocol) : Stack τ α where
  count := 0
  mode :=
    match protocol with
    | .optimistic => .opt
    | .optimisticRealtime => .opt
    | .sequentialRollbackCheck => .seqRvDbg
    | .optimisticDebug => .optDbg
    | _ => .nonopt
  entries := []

/-- What `free_fn` is called for. -/
def Entry.freed (e : Entry τ α) : List α := if e.freeFn then [e.data] else []

/-- `rc_stack_push`. -/
def push (now : τ) (data : α) (freeFn : Bool) (s : Stack τ α) : Stack τ α × List α :=
  if s.mode ≠ .nonopt ∨ freeFn = false then
    ({ s with entries := s.entries ++ [⟨now, data, freeFn⟩], count := s.count + 1 }, [])
  else (s, [data])

/-- `rc_stack_pop`. -/
def pop (s : Stack τ α) : Option (α × Stack τ α) :=
  match s.entries.getLast? with
  | none => none
  | some ent => some (ent.data, { s with entries := s.entries.dropLast, count := s.count - 1 })

/-- The loop over the entries at the old end: the entries that stay, how many have gone and what was
freed. -/
def dropWhileOld (old : Entry τ α → Bool) : List (Entry τ α) → List (Entry τ α) × ℕ × List α
  | [] => ([], 0, [])
  | ent :: ents =>
    if old ent then
      let r := dropWhileOld old ents
      (r.1, r.2.1 + 1, ent.freed ++ r.2.2)
    else (ent :: ents, 0, [])

/-- The loop of the rollback check: only the newest entry stays. -/
def dropAllButOne : List (Entry τ α) → List (Entry τ α) × ℕ × List α
  | [] => ([], 0, [])
  | [ent] => ([ent], 0, [])
  | ent :: ent' :: ents =>
    let r := dropAllButOne (ent' :: ents)
    (r.1, r.2.1 + 1, ent.freed ++ r.2.2)

/-- The entries that a loop of `rc_stack_gc` leaves. -/
def collected (s : Stack τ α) (r : List (Entry τ α) × ℕ × List α) : Stack τ α × List α :=
  ({ s with entries := r.1, count := s.count - r.2.1 }, r.2.2)

section Order

variable [LinearOrder τ]

/-- `rc_stack_gc`; without an LP there is no GVT, and everything goes. -/
def gc (gvt : Option τ) (s : Stack τ α) : Stack τ α × List α :=
  match s.mode with
  | .optDbg => (s, [])
  | .seqRvDbg => collected s (dropAllButOne s.entries)
  | _ => collected s (dropWhileOld (fun ent => gvt.all fun t => ent.time < t) s.entries)

/-! ### An LP under Time Warp -/

/-- Something an event pushes. -/
structure Item (α : Type*) where
  data : α
  freeFn : Bool

/-- An event that was processed, with what it has pushed. -/
structure Event (τ α : Type*) where
  time : τ
  items : List (Item α)

/-- An LP with its stack, the events that it has processed and not rolled back, what was freed and
the rollbacks with what they popped. -/
structure Lp (τ α : Type*) where
  stack : Stack τ α
  gvt : τ
  processed : List (Event τ α)
  freed : List α
  rollbacks : List (Event τ α × List α)

/-- What happens to an LP. -/
inductive Label (τ α : Type*) where
  /-- An event is processed. -/
  | forward (time : τ) (items : List (Item α))
  /-- The last event is rolled back. -/
  | rollback
  /-- GVT is computed. -/
  | gvt (time : τ)

/-- An LP that has processed nothing. -/
def Lp.init (protocol : Protocol) (gvt : τ) : Lp τ α := ⟨create protocol, gvt, [], [], []⟩

/-- Push the items of an event. -/
def pushAll (now : τ) : List (Item α) → Stack τ α → Stack τ α × List α
  | [], s => (s, [])
  | item :: items, s =>
    let r := push now item.data item.freeFn s
    let r' := pushAll now items r.1
    (r'.1, r.2 ++ r'.2)

/-- Pop a number of items. -/
def popAll : ℕ → Stack τ α → Option (List α × Stack τ α)
  | 0, s => some ([], s)
  | n + 1, s => (pop s).bind fun r => (popAll n r.2).map fun r' => (r.1 :: r'.1, r'.2)

/-- An event collects garbage and pushes its items. -/
def Lp.forward (lp : Lp τ α) (time : τ) (items : List (Item α)) : Lp τ α :=
  let r := gc (some lp.gvt) lp.stack
  let r' := pushAll time items r.1
  { lp with
    stack := r'.1
    processed := lp.processed ++ [⟨time, items⟩]
    freed := lp.freed ++ r.2 ++ r'.2 }

/-- A rollback pops as many items as the event has pushed. -/
def Lp.rollback (lp : Lp τ α) : Option (Lp τ α) :=
  match lp.processed.getLast? with
  | none => none
  | some e => (popAll e.items.length lp.stack).map fun r =>
    { lp with
      stack := r.2
      processed := lp.processed.dropLast
      rollbacks := lp.rollbacks ++ [(e, r.1)] }

/-- An LP under Time Warp. -/
def timeWarp : Machine (Lp τ α) (Label τ α) where
  step lp
    | .forward time items => some (lp.forward time items)
    | .rollback => lp.rollback
    | .gvt time => some { lp with gvt := time }

/-- What Time Warp promises: events come in increasing order, GVT never decreases, and no event
below GVT is rolled back. -/
def Promised (lp : Lp τ α) : Label τ α → Prop
  | .forward time _ => ∀ e ∈ lp.processed, e.time < time
  | .rollback => ∃ e, lp.processed.getLast? = some e ∧ ¬ e.time < lp.gvt
  | .gvt time => lp.gvt ≤ time

instance (lp : Lp τ α) : ∀ l, Decidable (Promised lp l)
  | .forward time _ => inferInstanceAs (Decidable (∀ e ∈ lp.processed, e.time < time))
  | .rollback => decidable_of_iff (lp.processed.getLast?.any fun e => ¬ e.time < lp.gvt)
      (by simp [Promised, Option.any_eq_true])
  | .gvt time => inferInstanceAs (Decidable (lp.gvt ≤ time))

/-- The entries of an event. -/
def Event.entries (e : Event τ α) : List (Entry τ α) :=
  e.items.map fun item => ⟨e.time, item.data, item.freeFn⟩

/-- What is to be freed of an event. -/
def Event.freeable (e : Event τ α) : List α := e.entries.flatMap Entry.freed

/-- **The stack holds the live entries**: of the events that were processed the old ones have been
collected, and those after them are on the stack. -/
structure Lp.Sound (lp : Lp τ α) : Prop where
  mode : lp.stack.mode = .opt
  count : lp.stack.count = lp.stack.entries.length
  sorted : lp.processed.Pairwise fun e e' => e.time < e'.time
  live : ∃ old live, lp.processed = old ++ live ∧ (∀ e ∈ old, e.time < lp.gvt) ∧
    lp.stack.entries = live.flatMap Event.entries ∧ lp.freed = old.flatMap Event.freeable
  popped : ∀ r ∈ lp.rollbacks, r.2 = (r.1.items.map Item.data).reverse

end Order

/-! ### The loops -/

theorem dropWhileOld_append (old : Entry τ α → Bool) (ents ents' : List (Entry τ α))
    (hold : ∀ ent ∈ ents, old ent = true) (hnew : ∀ ent ∈ ents', old ent = false) :
    dropWhileOld old (ents ++ ents') = (ents', ents.length, ents.flatMap Entry.freed) := by
  induction ents with
  | nil =>
    cases ents' with
    | nil => rfl
    | cons ent ents' => simp [dropWhileOld, hnew ent List.mem_cons_self]
  | cons ent ents ih =>
    rw [List.cons_append, dropWhileOld, if_pos (hold ent List.mem_cons_self),
      ih fun ent' hent' => hold ent' (List.mem_cons_of_mem _ hent')]
    rfl

variable {s : Stack τ α}

theorem pushAll_eq (hmode : s.mode ≠ .nonopt) (now : τ) (items : List (Item α)) :
    pushAll now items s =
      ({ s with
        entries := s.entries ++ items.map fun item => ⟨now, item.data, item.freeFn⟩
        count := s.count + items.length }, []) := by
  induction items generalizing s with
  | nil => simp [pushAll]
  | cons item items ih =>
    have hpush : push now item.data item.freeFn s =
        ({ s with
          entries := s.entries ++ [⟨now, item.data, item.freeFn⟩]
          count := s.count + 1 }, []) := if_pos (.inl hmode)
    simp only [pushAll, hpush]
    rw [ih (s := { s with
      entries := s.entries ++ [⟨now, item.data, item.freeFn⟩]
      count := s.count + 1 }) hmode]
    simp only [List.map_cons, List.length_cons, List.append_assoc, List.singleton_append,
      List.append_nil, Prod.mk.injEq, Stack.mk.injEq, and_true]
    push_cast
    omega

theorem popAll_eq {pre ents : List (Entry τ α)} (hs : s.entries = pre ++ ents) :
    popAll ents.length s =
      some ((ents.map Entry.data).reverse, { s with
        entries := pre
        count := s.count - ents.length }) := by
  induction ents using List.reverseRecOn generalizing s with
  | nil =>
    rw [List.append_nil] at hs
    simp [popAll, ← hs]
  | append_singleton ents ent ih =>
    have hpop : pop s = some (ent.data, { s with
        entries := pre ++ ents
        count := s.count - 1 }) := by
      rw [pop, hs, ← List.append_assoc, List.getLast?_concat, List.dropLast_concat]
    rw [List.length_append, List.length_singleton, popAll, hpop, Option.bind_some, ih rfl]
    simp only [Option.map_some, List.map_append, List.map_cons, List.map_nil, List.reverse_append,
      List.reverse_cons, List.reverse_nil, List.nil_append, List.singleton_append,
      Option.some.injEq, Prod.mk.injEq, Stack.mk.injEq, and_true, true_and]
    push_cast
    omega

/-! ### Garbage collection -/

section Collection

variable [LinearOrder τ] {lp lp' : Lp τ α} {t : τ} {events : List (Event τ α)}

theorem old_append_new (hsorted : events.Pairwise fun e e' => e.time < e'.time) :
    (events.filter fun e => e.time < t) ++ (events.filter fun e => ¬ e.time < t) = events := by
  induction events with
  | nil => rfl
  | cons e events ih =>
    obtain ⟨hlt, hrest⟩ := List.pairwise_cons.1 hsorted
    by_cases he : e.time < t
    · simpa [he] using ih hrest
    · have hnew : ∀ e' ∈ e :: events, ¬ e'.time < t := by
        intro e' he'
        obtain rfl | he' := List.mem_cons.1 he'
        · exact he
        · exact fun h => he (lt_trans (hlt e' he') h)
      have hnone : (e :: events).filter (fun e => e.time < t) = [] :=
        List.filter_eq_nil_iff.2 fun e' he' => by simpa using hnew e' he'
      rw [hnone, List.nil_append, List.filter_eq_self]
      exact fun e' he' => by simpa using hnew e' he'

omit [LinearOrder τ] in
theorem mem_entries {ent : Entry τ α} (h : ent ∈ events.flatMap Event.entries) :
    ∃ e ∈ events, ent.time = e.time := by
  obtain ⟨e, he, hent⟩ := List.mem_flatMap.1 h
  obtain ⟨item, -, rfl⟩ := List.mem_map.1 hent
  exact ⟨e, he, rfl⟩

/-- **What is collected** of a stack that holds the entries of events in order: those of the events
before GVT. -/
theorem gc_eq (hmode : s.mode = .opt) (hsorted : events.Pairwise fun e e' => e.time < e'.time)
    (hs : s.entries = events.flatMap Event.entries) :
    gc (some t) s = ({ s with
      entries := (events.filter fun e => ¬ e.time < t).flatMap Event.entries
      count := s.count - ((events.filter fun e => e.time < t).flatMap Event.entries).length },
      (events.filter fun e => e.time < t).flatMap Event.freeable) := by
  have hsplit : s.entries = (events.filter fun e => e.time < t).flatMap Event.entries ++
      (events.filter fun e => ¬ e.time < t).flatMap Event.entries := by
    rw [← List.flatMap_append, old_append_new hsorted, hs]
  have hdrop := dropWhileOld_append (fun ent => (some t).all fun t => ent.time < t)
    ((events.filter fun e => e.time < t).flatMap Event.entries)
    ((events.filter fun e => ¬ e.time < t).flatMap Event.entries) (by
      intro ent hent
      obtain ⟨e, he, htime⟩ := mem_entries hent
      simpa [htime] using (List.mem_filter.1 he).2) (by
      intro ent hent
      obtain ⟨e, he, htime⟩ := mem_entries hent
      simpa [htime] using (List.mem_filter.1 he).2)
  rw [← hsplit, List.flatMap_assoc] at hdrop
  simp only [gc, hmode, collected, hdrop]
  rfl

theorem gc_none (hmode : s.mode = .opt) : gc none s = ({ s with
      entries := []
      count := s.count - s.entries.length }, s.entries.flatMap Entry.freed) := by
  have hdrop := dropWhileOld_append (fun ent => (none : Option τ).all fun t => ent.time < t)
    s.entries []
    (fun _ _ => rfl) (by simp)
  rw [List.append_nil] at hdrop
  simp only [gc, hmode, collected, hdrop]

/-! ### Runs -/

theorem Lp.Sound.init {protocol : Protocol}
    (h : protocol = .optimistic ∨ protocol = .optimisticRealtime) :
    (Lp.init protocol t : Lp τ α).Sound where
  mode := by obtain rfl | rfl := h <;> rfl
  count := rfl
  sorted := List.Pairwise.nil
  live := ⟨[], [], rfl, by simp, rfl, rfl⟩
  popped := by simp [Lp.init]

/-- **Garbage collection** frees what is committed and was not yet freed, and keeps the rest. -/
theorem Lp.Sound.collect (h : lp.Sound) :
    (gc (some lp.gvt) lp.stack).1 = { lp.stack with
      entries := (lp.processed.filter fun e => ¬ e.time < lp.gvt).flatMap Event.entries
      count := ((lp.processed.filter fun e => ¬ e.time < lp.gvt).flatMap Event.entries).length } ∧
    lp.freed ++ (gc (some lp.gvt) lp.stack).2 =
      (lp.processed.filter fun e => e.time < lp.gvt).flatMap Event.freeable := by
  obtain ⟨old, live, hprocessed, hold, hentries, hfreed⟩ := h.live
  have hsorted := h.sorted
  rw [hprocessed] at hsorted
  have hlive := (List.pairwise_append.1 hsorted).2.1
  have hkeep : old.filter (fun e => e.time < lp.gvt) = old :=
    List.filter_eq_self.2 fun e he => decide_eq_true (hold e he)
  have hnone : old.filter (fun e => ¬ e.time < lp.gvt) = [] :=
    List.filter_eq_nil_iff.2 fun e he => by simpa using hold e he
  have hcount : (lp.stack.count : ℤ) = ((live.filter fun e => e.time < lp.gvt).flatMap
      Event.entries).length +
      ((live.filter fun e => ¬ e.time < lp.gvt).flatMap Event.entries).length := by
    rw [h.count, hentries, ← Int.natCast_add, ← List.length_append, ← List.flatMap_append,
      old_append_new hlive]
  rw [gc_eq h.mode hlive hentries, hprocessed, List.filter_append, List.filter_append, hkeep, hnone,
    List.nil_append, hfreed, List.flatMap_append]
  refine ⟨?_, rfl⟩
  simp only [Stack.mk.injEq, and_true]
  omega

/-- An event collects garbage and pushes. -/
theorem Lp.Sound.forward (h : lp.Sound) (hnew : ∀ e ∈ lp.processed, e.time < t)
    (items : List (Item α)) : (lp.forward t items).Sound := by
  obtain ⟨hstack, hfreed⟩ := h.collect
  have hmode : (gc (some lp.gvt) lp.stack).1.mode ≠ .nonopt := by
    rw [hstack]
    simp [h.mode]
  have hpush := pushAll_eq hmode t items
  rw [Lp.forward, hpush, hstack]
  refine ⟨h.mode, ?_, ?_, ?_, h.popped⟩
  · simp [Event.entries]
  · refine List.pairwise_append.2 ⟨h.sorted, List.pairwise_singleton _ _, fun e he e' he' => ?_⟩
    rw [List.mem_singleton.1 he']
    exact hnew e he
  · refine ⟨lp.processed.filter fun e => e.time < lp.gvt,
      (lp.processed.filter fun e => ¬ e.time < lp.gvt) ++ [⟨t, items⟩], ?_, ?_, ?_, ?_⟩
    · rw [← List.append_assoc, old_append_new h.sorted]
    · intro e he
      simpa using (List.mem_filter.1 he).2
    · rw [List.flatMap_append, List.flatMap_singleton]
      rfl
    · rw [← hfreed, List.append_nil]

theorem Lp.Sound.rollback (h : lp.Sound) {e : Event τ α} (he : lp.processed.getLast? = some e)
    (hgvt : ¬ e.time < lp.gvt) : ∃ lp', lp.rollback = some lp' ∧ lp'.Sound := by
  obtain ⟨old, live, hprocessed, hold, hentries, hfreed⟩ := h.live
  have hlast : (old ++ live).getLast? = some e := hprocessed ▸ he
  -- the event is not old, so its items are on the stack
  obtain ⟨live', rfl⟩ : ∃ live', live = live' ++ [e] := by
    obtain rfl | ⟨live', e', rfl⟩ := List.eq_nil_or_concat live
    · rw [List.append_nil] at hlast
      exact absurd (hold e (List.mem_of_getLast? hlast)) hgvt
    · rw [List.concat_eq_append, ← List.append_assoc, List.getLast?_concat] at hlast
      cases hlast
      exact ⟨live', List.concat_eq_append⟩
  have hstack : lp.stack.entries = live'.flatMap Event.entries ++ e.entries := by
    rw [hentries, List.flatMap_append, List.flatMap_singleton]
  have hpop := popAll_eq hstack
  rw [Event.entries, List.length_map, List.map_map] at hpop
  have hdrop : lp.processed.dropLast = old ++ live' := by
    rw [hprocessed, ← List.append_assoc, List.dropLast_concat]
  refine ⟨{ lp with
    stack := { lp.stack with
      entries := live'.flatMap Event.entries
      count := lp.stack.count - e.items.length }
    processed := lp.processed.dropLast
    rollbacks := lp.rollbacks ++ [(e, (e.items.map Item.data).reverse)] }, ?_, h.mode, ?_, ?_,
    ⟨old, live', hdrop, hold, rfl, hfreed⟩, ?_⟩
  · rw [Lp.rollback, he]
    simp only [hpop, Option.map_some]
    rfl
  · have hcount := h.count
    rw [hstack, List.length_append, Event.entries, List.length_map] at hcount
    simp only
    omega
  · exact h.sorted.sublist (List.dropLast_sublist _)
  · intro r hr
    obtain hr | hr := List.mem_append.1 hr
    · exact h.popped r hr
    · rw [List.mem_singleton.1 hr]

theorem Lp.Sound.step (h : lp.Sound) {l : Label τ α} (hl : Promised lp l) :
    ∃ lp', timeWarp.step lp l = some lp' ∧ lp'.Sound := by
  cases l with
  | forward time items => exact ⟨_, rfl, h.forward hl items⟩
  | rollback =>
    obtain ⟨e, he, hgvt⟩ := hl
    exact h.rollback he hgvt
  | gvt time =>
    obtain ⟨old, live, hprocessed, hold, hentries, hfreed⟩ := h.live
    exact ⟨_, rfl, h.mode, h.count, h.sorted,
      ⟨old, live, hprocessed, fun e he => lt_of_lt_of_le (hold e he) hl, hentries, hfreed⟩,
      h.popped⟩

theorem Lp.Sound.run (h : lp.Sound) {ls : List (Label τ α)} (hls : timeWarp.Meets Promised lp ls) :
    ∃ lp', timeWarp.run lp ls = some lp' ∧ lp'.Sound := by
  induction ls generalizing lp with
  | nil => exact ⟨lp, rfl, h⟩
  | cons l ls ih =>
    obtain ⟨lp₁, h₁, hsound⟩ := h.step hls.1
    obtain ⟨lp₂, h₂, hsound'⟩ := ih hsound (hls.2 lp₁ h₁)
    exact ⟨lp₂, Machine.run_cons_eq_some.2 ⟨lp₁, h₁, h₂⟩, hsound'⟩

/-- **The stack under Time Warp.**  No pop fails, every rollback gets back what its event has
pushed, newest first, and the count is that of the entries.  A collection leaves the entries of the
events that may be rolled back, and then the free functions were called once for what the events
before GVT have pushed and for nothing else; when the stack is destroyed, for what all events have
pushed. -/
theorem timeWarp_sound {protocol : Protocol}
    (hprotocol : protocol = .optimistic ∨ protocol = .optimisticRealtime) (gvt : τ)
    {ls : List (Label τ α)} (hls : timeWarp.Meets Promised (Lp.init protocol gvt) ls) :
    ∃ lp, timeWarp.run (Lp.init protocol gvt) ls = some lp ∧
      (∀ r ∈ lp.rollbacks, r.2 = (r.1.items.map Item.data).reverse) ∧
      lp.stack.count = lp.stack.entries.length ∧
      (∃ old live, lp.processed = old ++ live ∧ (∀ e ∈ old, e.time < lp.gvt) ∧
        lp.stack.entries = live.flatMap Event.entries ∧ lp.freed = old.flatMap Event.freeable) ∧
      (gc (some lp.gvt) lp.stack).1.entries =
        (lp.processed.filter fun e => ¬ e.time < lp.gvt).flatMap Event.entries ∧
      lp.freed ++ (gc (some lp.gvt) lp.stack).2 =
        (lp.processed.filter fun e => e.time < lp.gvt).flatMap Event.freeable ∧
      (gc none lp.stack).1.entries = [] ∧
      lp.freed ++ (gc none lp.stack).2 = lp.processed.flatMap Event.freeable := by
  obtain ⟨lp, hrun, h⟩ := (Lp.Sound.init hprotocol).run hls
  obtain ⟨hstack, hfreed⟩ := h.collect
  refine ⟨lp, hrun, h.popped, h.count, h.live, ?_, hfreed, ?_, ?_⟩
  · rw [hstack]
  · rw [gc_none h.mode]
  · obtain ⟨old, live, hprocessed, -, hentries, hold⟩ := h.live
    rw [gc_none h.mode, hold, hentries, hprocessed, List.flatMap_append, List.flatMap_assoc]
    rfl

/-- Two events, a rollback, GVT between them, another event and its rollback. -/
def fiveSteps : List (Label ℕ Char) :=
  [.forward 1 [⟨'a', true⟩, ⟨'b', true⟩], .forward 2 [⟨'c', true⟩], .rollback, .gvt 2,
    .forward 3 [⟨'d', true⟩, ⟨'e', true⟩], .rollback]

theorem timeWarp_sound_fiveSteps : ∃ lp, timeWarp.run (Lp.init .optimistic 0) fiveSteps = some lp ∧
    ∀ r ∈ lp.rollbacks, r.2 = (r.1.items.map Item.data).reverse := by
  have hmeets : timeWarp.Meets Promised (Lp.init .optimistic 0) fiveSteps := by decide
  obtain ⟨lp, hrun, hpopped, -⟩ := timeWarp_sound (.inl rfl) 0 hmeets
  exact ⟨lp, hrun, hpopped⟩

example : (timeWarp.run (Lp.init .optimistic 0) fiveSteps).map
    (fun lp => (lp.rollbacks.map Prod.snd, lp.freed)) = some ([['c'], ['e', 'd']], ['a', 'b']) := by
  decide

end Collection

end CodesSim.RcStack
