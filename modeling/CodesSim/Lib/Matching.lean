import Mathlib.Data.List.Induction
import Mathlib.Data.List.Nodup

/-!
# First-come matching of two queues

Requests and arrivals come in over time.  A newcomer is matched to the first waiting entry of the
other side that it fits and otherwise waits at the end of its own queue.  Entries carry the number
of the event they came with.

* `Matcher.Inv` holds in every reachable state (`inv_run`): no waiting pair fits, nothing is matched
  twice, and an entry that still waits came after the matched ones whose partner it fits.
* `Matcher.Inv.ordered` is the consequence for two matches that could be exchanged: both sides are
  in the order they came in.
* `recorded_run` relates the entries to the events.
-/

namespace CodesSim

/-- Two queues of waiting entries, the pairs matched so far in the order they were matched, and the
number of events so far. -/
structure Matcher (R A : Type*) where
  /-- The requests that wait. -/
  posted : List (ℕ × R)
  /-- The arrivals that wait. -/
  arrived : List (ℕ × A)
  matched : List ((ℕ × R) × (ℕ × A))
  clock : ℕ

namespace Matcher

variable {R A : Type*}

/-- What may happen. -/
inductive Event (R A : Type*) where
  | post (r : R)
  | arrive (a : A)
  /-- Something that does not concern the queues. -/
  | other

/-- Nothing has happened yet. -/
def init : Matcher R A := ⟨[], [], [], 0⟩

/-- A request comes in. -/
def post (ok : R → A → Bool) (s : Matcher R A) (r : R) : Matcher R A :=
  match s.arrived.find? fun a => ok r a.2 with
  | some a =>
    { s with
      arrived := s.arrived.eraseP fun a => ok r a.2
      matched := s.matched ++ [((s.clock, r), a)]
      clock := s.clock + 1 }
  | none => { s with posted := s.posted ++ [(s.clock, r)], clock := s.clock + 1 }

/-- An arrival comes in. -/
def arrive (ok : R → A → Bool) (s : Matcher R A) (a : A) : Matcher R A :=
  match s.posted.find? fun r => ok r.2 a with
  | some r =>
    { s with
      posted := s.posted.eraseP fun r => ok r.2 a
      matched := s.matched ++ [(r, (s.clock, a))]
      clock := s.clock + 1 }
  | none => { s with arrived := s.arrived ++ [(s.clock, a)], clock := s.clock + 1 }

/-- One event. -/
def step (ok : R → A → Bool) (s : Matcher R A) : Event R A → Matcher R A
  | .post r => s.post ok r
  | .arrive a => s.arrive ok a
  | .other => { s with clock := s.clock + 1 }

/-- A run from the start. -/
def run (ok : R → A → Bool) (evs : List (Event R A)) : Matcher R A := evs.foldl (step ok) init

theorem run_append (ok : R → A → Bool) (evs : List (Event R A)) (e : Event R A) :
    run ok (evs ++ [e]) = (run ok evs).step ok e := by simp [run]

/-! ### The two sides -/

/-- The same queues with the sides exchanged. -/
def swap (s : Matcher R A) : Matcher A R :=
  ⟨s.arrived, s.posted, s.matched.map Prod.swap, s.clock⟩

@[simp] theorem swap_arrived (s : Matcher R A) : s.swap.arrived = s.posted := rfl

@[simp] theorem swap_matched (s : Matcher R A) : s.swap.matched = s.matched.map Prod.swap := rfl

@[simp] theorem swap_clock (s : Matcher R A) : s.swap.clock = s.clock := rfl

@[simp] theorem swap_swap (s : Matcher R A) : s.swap.swap = s := by
  cases s
  simp [swap]

theorem swap_arrive (ok : R → A → Bool) (s : Matcher R A) (a : A) :
    (s.arrive ok a).swap = s.swap.post (fun a r => ok r a) a := by
  rw [arrive, post, swap_arrived]
  cases s.posted.find? fun r => ok r.2 a <;> simp [swap]

/-! ### The invariant -/

/-- What holds in every reachable state. -/
structure Inv (ok : R → A → Bool) (s : Matcher R A) : Prop where
  complete : ∀ r ∈ s.posted, ∀ a ∈ s.arrived, ok r.2 a.2 = false
  postedSorted : s.posted.Pairwise fun x y => x.1 < y.1
  arrivedSorted : s.arrived.Pairwise fun x y => x.1 < y.1
  postedLt : ∀ r ∈ s.posted, r.1 < s.clock
  arrivedLt : ∀ a ∈ s.arrived, a.1 < s.clock
  matchedLt : ∀ m ∈ s.matched, m.1.1 < s.clock ∧ m.2.1 < s.clock
  matchedOk : ∀ m ∈ s.matched, ok m.1.2 m.2.2 = true
  /-- What waits has not been matched. -/
  postedFresh : ∀ r ∈ s.posted, ∀ m ∈ s.matched, m.1.1 ≠ r.1
  arrivedFresh : ∀ a ∈ s.arrived, ∀ m ∈ s.matched, m.2.1 ≠ a.1
  requestsNodup : (s.matched.map fun m => m.1.1).Nodup
  arrivalsNodup : (s.matched.map fun m => m.2.1).Nodup
  /-- A request that waits came after those whose arrivals it fits. -/
  postedLast : ∀ r ∈ s.posted, ∀ m ∈ s.matched, ok r.2 m.2.2 = true → m.1.1 < r.1
  arrivedLast : ∀ a ∈ s.arrived, ∀ m ∈ s.matched, ok m.1.2 a.2 = true → m.2.1 < a.1
  /-- Two matches that could be exchanged are in order on both sides. -/
  matchedOrdered : s.matched.Pairwise fun x y =>
    ok y.1.2 x.2.2 = true → ok x.1.2 y.2.2 = true → x.1.1 < y.1.1 ∧ x.2.1 < y.2.1

theorem inv_init (ok : R → A → Bool) : Inv ok (init : Matcher R A) := by
  constructor <;> simp [init]

variable {ok : R → A → Bool} {s : Matcher R A}

/-- The invariant does not tell the sides apart. -/
theorem Inv.swap (h : Inv ok s) : Inv (fun a r => ok r a) s.swap where
  complete a ha r hr := h.complete r hr a ha
  postedSorted := h.arrivedSorted
  arrivedSorted := h.postedSorted
  postedLt := h.arrivedLt
  arrivedLt := h.postedLt
  matchedLt := by
    intro m hm
    obtain ⟨n, hn, rfl⟩ := List.mem_map.1 hm
    exact (h.matchedLt n hn).symm
  matchedOk := by
    intro m hm
    obtain ⟨n, hn, rfl⟩ := List.mem_map.1 hm
    exact h.matchedOk n hn
  postedFresh := by
    intro a ha m hm
    obtain ⟨n, hn, rfl⟩ := List.mem_map.1 hm
    exact h.arrivedFresh a ha n hn
  arrivedFresh := by
    intro r hr m hm
    obtain ⟨n, hn, rfl⟩ := List.mem_map.1 hm
    exact h.postedFresh r hr n hn
  requestsNodup := by simpa [Function.comp_def] using h.arrivalsNodup
  arrivalsNodup := by simpa [Function.comp_def] using h.requestsNodup
  postedLast := by
    intro a ha m hm
    obtain ⟨n, hn, rfl⟩ := List.mem_map.1 hm
    exact h.arrivedLast a ha n hn
  arrivedLast := by
    intro r hr m hm
    obtain ⟨n, hn, rfl⟩ := List.mem_map.1 hm
    exact h.postedLast r hr n hn
  matchedOrdered := by
    rw [swap_matched, List.pairwise_map]
    exact h.matchedOrdered.imp fun hxy h1 h2 => (hxy h2 h1).symm

variable {α : Type*}

/-- The first fitting entry of a queue in order comes before the other fitting ones. -/
theorem first_le {p : ℕ × α → Bool} {xs : List (ℕ × α)}
    (hs : xs.Pairwise fun x y => x.1 < y.1) {x y : ℕ × α} (hx : xs.find? p = some x)
    (hy : y ∈ xs) (hp : p y = true) : x.1 ≤ y.1 := by
  induction xs with
  | nil => cases hx
  | cons z zs ih =>
    obtain ⟨hz, hs⟩ := List.pairwise_cons.1 hs
    by_cases hpz : p z = true
    · rw [List.find?_cons_of_pos hpz] at hx
      obtain rfl := Option.some.inj hx
      obtain rfl | hy := List.mem_cons.1 hy
      · exact Nat.le_refl _
      · exact Nat.le_of_lt (hz y hy)
    · rw [List.find?_cons_of_neg hpz] at hx
      obtain rfl | hy := List.mem_cons.1 hy
      · exact absurd hp hpz
      · exact ih hs hx hy

/-- What is taken out of a queue in order is not left in it. -/
theorem first_ne {p : ℕ × α → Bool} {xs : List (ℕ × α)}
    (hs : xs.Pairwise fun x y => x.1 < y.1) {x y : ℕ × α} (hx : xs.find? p = some x)
    (hy : y ∈ xs.eraseP p) : x.1 ≠ y.1 := by
  induction xs with
  | nil => cases hx
  | cons z zs ih =>
    obtain ⟨hz, hs⟩ := List.pairwise_cons.1 hs
    by_cases hpz : p z = true
    · rw [List.find?_cons_of_pos hpz] at hx
      obtain rfl := Option.some.inj hx
      rw [List.eraseP_cons_of_pos hpz] at hy
      exact Nat.ne_of_lt (hz y hy)
    · rw [List.find?_cons_of_neg hpz] at hx
      rw [List.eraseP_cons_of_neg hpz] at hy
      obtain rfl | hy := List.mem_cons.1 hy
      · exact Nat.ne_of_gt (hz x (List.mem_of_find?_eq_some hx))
      · exact ih hs hx hy

theorem first_lt {p : ℕ × α → Bool} {xs : List (ℕ × α)}
    (hs : xs.Pairwise fun x y => x.1 < y.1) {x y : ℕ × α} (hx : xs.find? p = some x)
    (hy : y ∈ xs.eraseP p) (hp : p y = true) : x.1 < y.1 :=
  Nat.lt_of_le_of_ne (first_le hs hx (List.mem_of_mem_eraseP hy) hp) (first_ne hs hx hy)

/-- A request that fits nothing waits. -/
theorem Inv.post_none (h : Inv ok s) {r : R} (hr : ∀ a ∈ s.arrived, ok r a.2 = false) :
    Inv ok { s with posted := s.posted ++ [(s.clock, r)], clock := s.clock + 1 } where
  complete := by
    intro x hx a ha
    obtain hx | hx := List.mem_append.1 hx
    · exact h.complete x hx a ha
    · obtain rfl := List.mem_singleton.1 hx
      exact hr a ha
  postedSorted := by
    rw [List.pairwise_append]
    refine ⟨h.postedSorted, List.pairwise_singleton _ _, fun x hx y hy => ?_⟩
    obtain rfl := List.mem_singleton.1 hy
    exact h.postedLt x hx
  arrivedSorted := h.arrivedSorted
  postedLt := by
    intro x hx
    obtain hx | hx := List.mem_append.1 hx
    · exact Nat.lt_succ_of_lt (h.postedLt x hx)
    · obtain rfl := List.mem_singleton.1 hx
      exact Nat.lt_succ_self _
  arrivedLt a ha := Nat.lt_succ_of_lt (h.arrivedLt a ha)
  matchedLt m hm := (h.matchedLt m hm).imp Nat.lt_succ_of_lt Nat.lt_succ_of_lt
  matchedOk := h.matchedOk
  postedFresh := by
    intro x hx m hm
    obtain hx | hx := List.mem_append.1 hx
    · exact h.postedFresh x hx m hm
    · obtain rfl := List.mem_singleton.1 hx
      exact Nat.ne_of_lt (h.matchedLt m hm).1
  arrivedFresh := h.arrivedFresh
  requestsNodup := h.requestsNodup
  arrivalsNodup := h.arrivalsNodup
  postedLast := by
    intro x hx m hm hok
    obtain hx | hx := List.mem_append.1 hx
    · exact h.postedLast x hx m hm hok
    · obtain rfl := List.mem_singleton.1 hx
      exact (h.matchedLt m hm).1
  arrivedLast := h.arrivedLast
  matchedOrdered := h.matchedOrdered

theorem Inv.post_some (h : Inv ok s) {r : R} {a : ℕ × A}
    (ha : s.arrived.find? (fun a => ok r a.2) = some a) :
    Inv ok
      { s with
        arrived := s.arrived.eraseP fun a => ok r a.2
        matched := s.matched ++ [((s.clock, r), a)]
        clock := s.clock + 1 } := by
  have hmem := List.mem_of_find?_eq_some ha
  have hok : ok r a.2 = true := by simpa using List.find?_some ha
  have hleft : ∀ x ∈ s.arrived.eraseP fun a => ok r a.2, x ∈ s.arrived := fun x hx =>
    List.mem_of_mem_eraseP hx
  have hmatch : ∀ {P : (ℕ × R) × (ℕ × A) → Prop}, (∀ m ∈ s.matched, P m) → P ((s.clock, r), a) →
      ∀ m ∈ s.matched ++ [((s.clock, r), a)], P m := by
    intro P hold hnew m hm
    obtain hm | hm := List.mem_append.1 hm
    · exact hold m hm
    · obtain rfl := List.mem_singleton.1 hm
      exact hnew
  constructor
  case complete => exact fun x hx y hy => h.complete x hx y (hleft y hy)
  case postedSorted => exact h.postedSorted
  case arrivedSorted => exact h.arrivedSorted.sublist (List.eraseP_sublist)
  case postedLt => exact fun x hx => Nat.lt_succ_of_lt (h.postedLt x hx)
  case arrivedLt => exact fun x hx => Nat.lt_succ_of_lt (h.arrivedLt x (hleft x hx))
  case matchedLt =>
    exact hmatch (fun m hm => (h.matchedLt m hm).imp Nat.lt_succ_of_lt Nat.lt_succ_of_lt)
      ⟨Nat.lt_succ_self _, Nat.lt_succ_of_lt (h.arrivedLt a hmem)⟩
  case matchedOk => exact hmatch h.matchedOk hok
  case postedFresh =>
    exact fun x hx => hmatch (fun m hm => h.postedFresh x hx m hm) (Nat.ne_of_gt (h.postedLt x hx))
  case arrivedFresh =>
    exact fun x hx => hmatch (fun m hm => h.arrivedFresh x (hleft x hx) m hm)
      (first_ne h.arrivedSorted ha hx)
  case requestsNodup =>
    simp only [List.map_append, List.map_cons, List.map_nil, List.nodup_append]
    refine ⟨h.requestsNodup, List.nodup_singleton _, fun n hn k hk => ?_⟩
    obtain ⟨m, hm, rfl⟩ := List.mem_map.1 hn
    obtain rfl := List.mem_singleton.1 hk
    exact Nat.ne_of_lt (h.matchedLt m hm).1
  case arrivalsNodup =>
    simp only [List.map_append, List.map_cons, List.map_nil, List.nodup_append]
    refine ⟨h.arrivalsNodup, List.nodup_singleton _, fun n hn k hk => ?_⟩
    obtain ⟨m, hm, rfl⟩ := List.mem_map.1 hn
    obtain rfl := List.mem_singleton.1 hk
    exact h.arrivedFresh a hmem m hm
  case postedLast =>
    intro x hx
    refine hmatch (fun m hm => h.postedLast x hx m hm) fun hxa => ?_
    -- a request that fits the arrival and waits would have been matched before
    rw [h.complete x hx a hmem] at hxa
    cases hxa
  case arrivedLast =>
    exact fun x hx => hmatch (fun m hm => h.arrivedLast x (hleft x hx) m hm)
      (first_lt h.arrivedSorted ha hx)
  case matchedOrdered =>
    rw [List.pairwise_append]
    refine ⟨h.matchedOrdered, List.pairwise_singleton _ _, fun m hm y hy _ hmy => ?_⟩
    obtain rfl := List.mem_singleton.1 hy
    exact ⟨(h.matchedLt m hm).1, h.arrivedLast a hmem m hm hmy⟩

theorem Inv.post (h : Inv ok s) (r : R) : Inv ok (s.post ok r) := by
  rw [Matcher.post]
  cases ha : s.arrived.find? fun a => ok r a.2 with
  | none =>
    refine h.post_none fun a ha' => ?_
    simpa using List.find?_eq_none.1 ha a ha'
  | some a => exact h.post_some ha

/-- **One event keeps the invariant.** -/
theorem Inv.step (h : Inv ok s) (e : Event R A) : Inv ok (s.step ok e) := by
  cases e with
  | post r => exact h.post r
  | arrive a =>
    have hs := (h.swap.post a).swap
    rw [← swap_arrive, swap_swap] at hs
    exact hs
  | other =>
    exact
      { h with
        postedLt := fun x hx => Nat.lt_succ_of_lt (h.postedLt x hx)
        arrivedLt := fun x hx => Nat.lt_succ_of_lt (h.arrivedLt x hx)
        matchedLt := fun m hm => (h.matchedLt m hm).imp Nat.lt_succ_of_lt Nat.lt_succ_of_lt }

/-- **The invariant holds in every reachable state.** -/
theorem inv_run (ok : R → A → Bool) (evs : List (Event R A)) : Inv ok (run ok evs) := by
  induction evs using List.reverseRecOn with
  | nil => exact inv_init ok
  | append_singleton evs e ih =>
    rw [run_append]
    exact ih.step e

/-! ### Consequences -/

/-- Of two matches that could be exchanged, one came first on both sides. -/
theorem Inv.ordered (h : Inv ok s)
    {x y : (ℕ × R) × (ℕ × A)} (hx : x ∈ s.matched) (hy : y ∈ s.matched)
    (hyx : ok y.1.2 x.2.2 = true) (hxy : ok x.1.2 y.2.2 = true) (hlt : x.2.1 < y.2.1) :
    x.1.1 < y.1.1 := by
  have hpair : (fun x y : (ℕ × R) × (ℕ × A) => ok y.1.2 x.2.2 = true → ok x.1.2 y.2.2 = true →
      (x.1.1 < y.1.1 ∧ x.2.1 < y.2.1) ∨ (y.1.1 < x.1.1 ∧ y.2.1 < x.2.1) ∨ x = y) x y := by
    obtain ⟨i, hi, rfl⟩ := List.getElem_of_mem hx
    obtain ⟨j, hj, rfl⟩ := List.getElem_of_mem hy
    intro h1 h2
    have hord := List.pairwise_iff_getElem.1 h.matchedOrdered
    obtain hij | rfl | hji := Nat.lt_trichotomy i j
    · exact .inl (hord i j hi hj hij h1 h2)
    · exact .inr (.inr rfl)
    · exact .inr (.inl (hord j i hj hi hji h2 h1))
  obtain h' | h' | rfl := hpair hyx hxy
  · exact h'.1
  · omega
  · omega

/-- **An arrival goes to the earliest request it fits.** -/
theorem Inv.arrive_earliest (h : Inv ok s) (a : A)
    {r : ℕ × R} (hr : r ∈ s.posted) (hok : ok r.2 a = true) :
    ∃ x ∈ s.posted, ok x.2 a = true ∧ (s.arrive ok a).matched = s.matched ++ [(x, (s.clock, a))] ∧
      ∀ y ∈ s.posted, ok y.2 a = true → x.1 ≤ y.1 := by
  rw [arrive]
  cases hx : s.posted.find? fun r => ok r.2 a with
  | none => exact absurd hok (by simpa using List.find?_eq_none.1 hx r hr)
  | some x =>
    have hxok : ok x.2 a = true := by simpa using List.find?_some hx
    refine ⟨x, List.mem_of_find?_eq_some hx, hxok, rfl, fun y hy hyok => ?_⟩
    exact first_le h.postedSorted hx hy hyok

/-! ### Entries and events -/

/-- The entries of a state are those of the events. -/
structure Recorded (evs : List (Event R A)) (s : Matcher R A) : Prop where
  clock : s.clock = evs.length
  posted : ∀ r ∈ s.posted, evs[r.1]? = some (.post r.2)
  arrived : ∀ a ∈ s.arrived, evs[a.1]? = some (.arrive a.2)
  matched : ∀ m ∈ s.matched,
    evs[m.1.1]? = some (.post m.1.2) ∧ evs[m.2.1]? = some (.arrive m.2.2)
  /-- No request is lost. -/
  post_mem : ∀ i r, evs[i]? = some (.post r) → (i, r) ∈ s.posted ∨ ∃ a, ((i, r), a) ∈ s.matched
  arrive_mem : ∀ i a, evs[i]? = some (.arrive a) → (i, a) ∈ s.arrived ∨ ∃ r, (r, (i, a)) ∈ s.matched

theorem recorded_init : Recorded ([] : List (Event R A)) init := by
  constructor <;> simp [init]

variable {i : ℕ}

theorem getElem?_append_some {xs : List α} {x : α} (h : xs[i]? = some x)
    (y : α) : (xs ++ [y])[i]? = some x := by
  rw [List.getElem?_append_left (List.getElem?_eq_some_iff.1 h).1, h]

theorem getElem?_append_cases {xs : List α} {x y : α}
    (h : (xs ++ [y])[i]? = some x) : xs[i]? = some x ∨ (i = xs.length ∧ y = x) := by
  obtain hi | rfl | hi := Nat.lt_trichotomy i xs.length
  · exact .inl (by rwa [List.getElem?_append_left hi] at h)
  · exact .inr ⟨rfl, by simpa using h⟩
  · rw [List.getElem?_append_right (by omega)] at h
    have hn : ([y] : List α)[i - xs.length]? = none := by
      rw [List.getElem?_eq_none_iff]
      simp
      omega
    rw [hn] at h
    cases h

theorem mem_of_taken {p : α → Bool} {xs : List α} {x y : α} (hx : xs.find? p = some x)
    (hy : y ∈ xs) : y = x ∨ y ∈ xs.eraseP p := by
  induction xs with
  | nil => cases hx
  | cons z zs ih =>
    by_cases hpz : p z = true
    · rw [List.find?_cons_of_pos hpz] at hx
      rw [List.eraseP_cons_of_pos hpz, ← Option.some.inj hx]
      exact List.mem_cons.1 hy
    · rw [List.find?_cons_of_neg hpz] at hx
      rw [List.eraseP_cons_of_neg hpz]
      obtain rfl | hy := List.mem_cons.1 hy
      · exact .inr List.mem_cons_self
      · exact (ih hx hy).imp id (List.mem_cons_of_mem _)

/-- The events with the sides exchanged. -/
def Event.swap : Event R A → Event A R
  | .post r => .arrive r
  | .arrive a => .post a
  | .other => .other

@[simp] theorem Event.swap_swap (e : Event R A) : e.swap.swap = e := by cases e <;> rfl

variable {evs : List (Event R A)}

theorem getElem?_swap_post {a : A} :
    (evs.map Event.swap)[i]? = some (.post a) ↔ evs[i]? = some (.arrive a) := by
  rw [List.getElem?_map]
  cases evs[i]? with
  | none => simp
  | some e => cases e <;> simp [Event.swap]

theorem getElem?_swap_arrive {r : R} :
    (evs.map Event.swap)[i]? = some (.arrive r) ↔ evs[i]? = some (.post r) := by
  rw [List.getElem?_map]
  cases evs[i]? with
  | none => simp
  | some e => cases e <;> simp [Event.swap]

theorem Recorded.swap (h : Recorded evs s) : Recorded (evs.map Event.swap) s.swap where
  clock := by rw [swap_clock, h.clock, List.length_map]
  posted a ha := getElem?_swap_post.2 (h.arrived a ha)
  arrived r hr := getElem?_swap_arrive.2 (h.posted r hr)
  matched := by
    intro m hm
    obtain ⟨n, hn, rfl⟩ := List.mem_map.1 hm
    exact ⟨getElem?_swap_post.2 (h.matched n hn).2, getElem?_swap_arrive.2 (h.matched n hn).1⟩
  post_mem := by
    intro i a ha
    refine (h.arrive_mem i a (getElem?_swap_post.1 ha)).imp id ?_
    rintro ⟨r, hr⟩
    exact ⟨r, List.mem_map.2 ⟨_, hr, rfl⟩⟩
  arrive_mem := by
    intro i r hr
    refine (h.post_mem i r (getElem?_swap_arrive.1 hr)).imp id ?_
    rintro ⟨a, ha⟩
    exact ⟨a, List.mem_map.2 ⟨_, ha, rfl⟩⟩

theorem Recorded.post (h : Recorded evs s) (r : R) : Recorded (evs ++ [.post r]) (s.post ok r) := by
  have hlast : (evs ++ [Event.post (A := A) r])[s.clock]? = some (.post r) := by
    rw [h.clock]
    simp
  have hmatched : ∀ m ∈ s.matched, (evs ++ [Event.post r])[m.1.1]? = some (.post m.1.2) ∧
      (evs ++ [Event.post r])[m.2.1]? = some (.arrive m.2.2) := fun m hm =>
    (h.matched m hm).imp (getElem?_append_some · _) (getElem?_append_some · _)
  rw [Matcher.post]
  cases ha : s.arrived.find? fun a => ok r a.2 with
  | none =>
    constructor
    case clock => simp [h.clock]
    case posted =>
      intro x hx
      obtain hx | hx := List.mem_append.1 hx
      · exact getElem?_append_some (h.posted x hx) _
      · obtain rfl := List.mem_singleton.1 hx
        exact hlast
    case arrived => exact fun x hx => getElem?_append_some (h.arrived x hx) _
    case matched => exact hmatched
    case post_mem =>
      intro i x hx
      obtain hx | ⟨rfl, he⟩ := getElem?_append_cases hx
      · exact (h.post_mem i x hx).imp (List.mem_append_left _) id
      · obtain rfl : r = x := Event.post.inj he
        exact .inl (List.mem_append_right _ (by simp [h.clock]))
    case arrive_mem =>
      intro i x hx
      obtain hx | ⟨-, he⟩ := getElem?_append_cases hx
      · exact h.arrive_mem i x hx
      · cases he
  | some a =>
    have hmem := List.mem_of_find?_eq_some ha
    constructor
    case clock => simp [h.clock]
    case posted => exact fun x hx => getElem?_append_some (h.posted x hx) _
    case arrived => exact fun x hx =>
      getElem?_append_some (h.arrived x (List.mem_of_mem_eraseP hx)) _
    case matched =>
      intro m hm
      obtain hm | hm := List.mem_append.1 hm
      · exact hmatched m hm
      · obtain rfl := List.mem_singleton.1 hm
        exact ⟨hlast, getElem?_append_some (h.arrived a hmem) _⟩
    case post_mem =>
      intro i x hx
      obtain hx | ⟨rfl, he⟩ := getElem?_append_cases hx
      · refine (h.post_mem i x hx).imp id ?_
        rintro ⟨y, hy⟩
        exact ⟨y, List.mem_append_left _ hy⟩
      · obtain rfl : r = x := Event.post.inj he
        exact .inr ⟨a, List.mem_append_right _ (by simp [h.clock])⟩
    case arrive_mem =>
      intro i x hx
      obtain hx | ⟨-, hx⟩ := getElem?_append_cases hx
      · obtain hx | ⟨y, hy⟩ := h.arrive_mem i x hx
        · obtain rfl | hx := mem_of_taken ha hx
          · exact .inr ⟨(s.clock, r), List.mem_append_right _ List.mem_cons_self⟩
          · exact .inl hx
        · exact .inr ⟨y, List.mem_append_left _ hy⟩
      · cases hx

theorem Recorded.step
    (h : Recorded evs s) (e : Event R A) : Recorded (evs ++ [e]) (s.step ok e) := by
  cases e with
  | post r => exact h.post r
  | arrive a =>
    have hs := (@Recorded.post A R (fun a r => ok r a) _ _ h.swap a).swap
    have hback : (evs.map Event.swap).map Event.swap = evs := by
      rw [List.map_map]
      exact (List.map_congr_left fun e _ => e.swap_swap).trans (List.map_id evs)
    rw [← swap_arrive, swap_swap, List.map_append, hback] at hs
    exact hs
  | other =>
    constructor
    case clock => simp [Matcher.step, h.clock]
    case posted => exact fun x hx => getElem?_append_some (h.posted x hx) _
    case arrived => exact fun x hx => getElem?_append_some (h.arrived x hx) _
    case matched =>
      exact fun m hm => (h.matched m hm).imp (getElem?_append_some · _) (getElem?_append_some · _)
    case post_mem =>
      intro i x hx
      obtain hx | ⟨-, he⟩ := getElem?_append_cases hx
      · exact h.post_mem i x hx
      · cases he
    case arrive_mem =>
      intro i x hx
      obtain hx | ⟨-, he⟩ := getElem?_append_cases hx
      · exact h.arrive_mem i x hx
      · cases he

/-- **Every entry of a run is that of an event, and every event has one.** -/
theorem recorded_run (ok : R → A → Bool) (evs : List (Event R A)) : Recorded evs (run ok evs) := by
  induction evs using List.reverseRecOn with
  | nil => exact recorded_init
  | append_singleton evs e ih =>
    rw [run_append]
    exact ih.step e

end Matcher

end CodesSim
