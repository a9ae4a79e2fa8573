import CodesSim.Resource.Rollback
import Mathlib.Algebra.BigOperators.Group.Finset.Basic

/-!
# The pools of a resource

Calls of the functions of `resource.c`, in any order.

* `Call.places` are the places of the arrays that a call uses.  The check of `resource_reserve`
  comes before the token is counted, so that the ninth reservation goes past the arrays
  (`places_within_iff`).
* A pool knows the least it had available (`Peak`), and the difference to its maximum is what is
  printed in the end.  A reservation lowers the maximum of the general pool, but not this minimum
  (`peaks_iff`).
* A request for more than a pool can ever have is not told apart from one that has to wait
  (`unsatisfiable_waits`).  Where it waits, nothing behind it is served (`unsatisfiable_stays`).
-/

namespace CodesSim.Resource

open Function

/-! ### Calls -/

/-- A call of a function of `resource.c`. -/
inductive Call where
  | get (req : UInt64) (tok : ℕ)
  | free (req : UInt64) (tok : ℕ)
  | reserve (req : UInt64)

/-- A resource, the units of each pool that callers have, and its states, the present one first. -/
structure Account where
  r : Res
  held : ℕ → ℕ
  past : List Res

def Account.init (avail : UInt64) : Account :=
  ⟨resourceInit avail, fun _ => 0, [resourceInit avail]⟩

def Account.next (a : Account) (r : Res) (held : ℕ → ℕ) : Account := ⟨r, held, r :: a.past⟩

/-- One call.  There is no result of a write outside of the arrays. -/
def Account.step (a : Account) : Call → Option Account
  | .get req tok =>
    let got := resourceGet req tok a.r
    some (a.next got.2
      (if got.1 = 0 then update a.held tok (a.held tok + req.toNat) else a.held))
  | .free req tok =>
    let freed := resourceFree req tok a.r
    some (a.next freed.2
      (if freed.1 = 0 then update a.held tok (a.held tok - req.toNat) else a.held))
  | .reserve req =>
    match resourceReserve req 0 a.r with
    | .error _ => none
    | .ok (_, _, r) => some (a.next r a.held)

/-- The calls on a resource. -/
def calls : Machine Account Call := ⟨Account.step⟩

section Calls

variable {a a' : Account} {r : Res} {req : UInt64} {tok : ℕ}

theorem reserve_cases_full (req : UInt64) (tok : ℕ) (hfull : r.numTokens = maxReserve) :
    r.avail 0 < req ∧ resourceReserve req tok r = .ok (1, tok, r) ∨
      req ≤ r.avail 0 ∧ resourceReserve req tok r = .error .outOfBounds := by
  rw [resourceReserve, hfull, if_neg (Nat.lt_irrefl _), if_pos (Nat.lt_succ_self _)]
  by_cases havail : req > r.avail 0
  · rw [if_pos havail]
    exact .inl ⟨havail, rfl⟩
  · rw [if_neg havail]
    exact .inr ⟨UInt64.not_lt.1 havail, rfl⟩

theorem reserve_cases_room (req : UInt64) (tok : ℕ) (hroom : r.numTokens < maxReserve) :
    r.avail 0 < req ∧ resourceReserve req tok r = .ok (1, tok, r) ∨
      req ≤ r.avail 0 ∧ resourceReserve req tok r = .ok (0, r.numTokens + 1, r.addPool req) := by
  rw [resourceReserve, if_neg (Nat.lt_asymm hroom), if_neg (Nat.not_lt.2 hroom)]
  by_cases havail : req > r.avail 0
  · rw [if_pos havail]
    exact .inl ⟨havail, rfl⟩
  · rw [if_neg havail]
    exact .inr ⟨UInt64.not_lt.1 havail, rfl⟩

theorem Account.step_cases {c : Call} (hnum : a.r.numTokens ≤ maxReserve)
    (h : a.step c = some a') :
    a' = a.next a.r a.held ∨
    (∃ req tok, c = .get req tok ∧ tok ≤ a.r.numTokens ∧ req ≤ a.r.avail tok ∧
      req ≤ a.r.max tok ∧
      a' = a.next (a.r.take req tok) (update a.held tok (a.held tok + req.toNat))) ∨
    (∃ req tok, c = .free req tok ∧ tok ≤ a.r.numTokens ∧
      a' = a.next (a.r.give req tok) (update a.held tok (a.held tok - req.toNat))) ∨
    ∃ req, c = .reserve req ∧ a.r.numTokens < maxReserve ∧ req ≤ a.r.avail 0 ∧
      a' = a.next (a.r.addPool req) a.held := by
  cases c with
  | get req tok =>
    rw [Account.step] at h
    obtain rfl := Option.some.inj h
    by_cases htok : tok ≤ a.r.numTokens
    · obtain ⟨-, hget⟩ | ⟨-, -, hget⟩ | ⟨havail, hmax, hget⟩ := resourceGet_cases req htok
      · rw [hget]
        exact .inl rfl
      · rw [hget]
        exact .inl rfl
      · rw [hget]
        exact .inr (.inl ⟨req, tok, rfl, htok, havail, hmax, rfl⟩)
    · rw [resourceGet, if_pos (Nat.not_le.1 htok)]
      exact .inl rfl
  | free req tok =>
    rw [Account.step, resourceFree] at h
    obtain rfl := Option.some.inj h
    by_cases htok : tok ≤ a.r.numTokens
    · rw [if_neg (Nat.not_lt.2 htok)]
      exact .inr (.inr (.inl ⟨req, tok, rfl, htok, rfl⟩))
    · rw [if_pos (Nat.not_le.1 htok)]
      exact .inl rfl
  | reserve req =>
    rw [Account.step] at h
    rcases Nat.lt_or_eq_of_le hnum with hroom | hfull
    · obtain ⟨-, hres⟩ | ⟨havail, hres⟩ := reserve_cases_room req 0 hroom
      · rw [hres] at h
        exact .inl (Option.some.inj h).symm
      · rw [hres] at h
        exact .inr (.inr (.inr ⟨req, rfl, hroom, havail, (Option.some.inj h).symm⟩))
    · obtain ⟨-, hres⟩ | ⟨-, hres⟩ := reserve_cases_full req 0 hfull
      · rw [hres] at h
        exact .inl (Option.some.inj h).symm
      · rw [hres] at h
        cases h

end Calls

/-! ### Places -/

/-- The places of `avail`, `max` and `min_avail` that a call uses.  The last one of a reservation is
the token that it hands out. -/
def Call.places (r : Res) : Call → List ℕ
  | .get _ tok => if tok > r.numTokens then [] else [tok]
  | .free _ tok => if tok > r.numTokens then [] else [tok]
  | .reserve req =>
    if r.numTokens > maxReserve then []
    else if req > r.avail 0 then [0]
    else [0, r.numTokens + 1]

/-- The places of `pending` that an event uses.  The assertion about a request for units comes
first. -/
def pendingPlaces (x : Sys) : Label → List ℕ
  | .event m => if m.eventType = .get ∧ m.i.tok ≤ x.s.r.numTokens then [m.i.tok] else []
  | .deq k m => if x.flying[k]? = some m.i.tok then [m.i.tok] else []

/-- A call uses places of the arrays, and a reservation that there is no place for is refused. -/
structure Within (a : Account) (c : Call) : Prop where
  places : ∀ i ∈ c.places a.r, i ≤ maxReserve
  refused : ∀ req tok, c = .reserve req → a.r.numTokens = maxReserve →
    resourceReserve req tok a.r = .ok (2, tok, a.r)

/-- The same of the queues of the LP. -/
def PendingWithin (x : Sys) (l : Label) : Prop := ∀ i ∈ pendingPlaces x l, i ≤ maxReserve

/-- Whatever is reserved has a place. -/
def NotFull (a : Account) : Call → Prop
  | .reserve _ => a.r.numTokens < maxReserve
  | _ => True
variable {l : Label}


section Places

variable {a a' : Account} {c : Call} {self : Lpid} {x x' : Sys}

theorem places_le (hnum : a.r.numTokens ≤ maxReserve) (hroom : NotFull a c) :
    ∀ i ∈ c.places a.r, i ≤ maxReserve := by
  cases c with
  | reserve req =>
    intro i hi
    have hroom : a.r.numTokens < maxReserve := hroom
    rw [Call.places, if_neg (Nat.not_lt.2 hnum)] at hi
    split_ifs at hi
    · rw [List.mem_singleton.1 hi]
      exact Nat.zero_le _
    · obtain rfl | rfl : i = 0 ∨ i = a.r.numTokens + 1 := by simpa using hi
      · exact Nat.zero_le _
      · exact hroom
  | get req tok =>
    intro i hi
    rw [Call.places] at hi
    split_ifs at hi with htok
    · cases hi
    · rw [List.mem_singleton.1 hi]
      exact Nat.le_trans (Nat.not_lt.1 htok) hnum
  | free req tok =>
    intro i hi
    rw [Call.places] at hi
    split_ifs at hi with htok
    · cases hi
    · rw [List.mem_singleton.1 hi]
      exact Nat.le_trans (Nat.not_lt.1 htok) hnum

theorem within_iff (hnum : a.r.numTokens ≤ maxReserve) : Within a c ↔ NotFull a c := by
  constructor
  · intro h
    cases c with
    | get => trivial
    | free => trivial
    | reserve req =>
      by_contra hfull
      have hfull : a.r.numTokens = maxReserve := Nat.le_antisymm hnum (Nat.not_lt.1 hfull)
      have href := h.refused req 0 rfl hfull
      -- it is answered by 1, or written behind the arrays
      obtain ⟨-, hres⟩ | ⟨-, hres⟩ := reserve_cases_full req 0 hfull
      · simp [hres] at href
      · simp [hres] at href
  · intro hroom
    refine ⟨places_le hnum hroom, ?_⟩
    rintro req tok rfl hfull
    exact absurd hfull (Nat.ne_of_lt hroom)

theorem Account.numTokens_step (hnum : a.r.numTokens ≤ maxReserve) (h : a.step c = some a') :
    a'.r.numTokens ≤ maxReserve := by
  obtain rfl | ⟨_, _, -, -, -, -, rfl⟩ | ⟨_, _, -, -, rfl⟩ | ⟨_, -, hroom, -, rfl⟩ :=
    Account.step_cases hnum h
  · exact hnum
  · exact hnum
  · exact hnum
  · exact hroom

/-- The tokens there are, and those in the events on their way, have places. -/
structure Sys.Placed (x : Sys) : Prop where
  tokens : x.s.r.numTokens ≤ maxReserve
  flying : ∀ t ∈ x.flying, t ≤ x.s.r.numTokens

theorem Sys.init_placed (avail : UInt64) : (Sys.init avail).Placed where
  tokens := Nat.zero_le _
  flying _ h := nomatch h

theorem Sys.Placed.after (h : x.Placed) {flying : List ℕ} {m : Msg} {e : Ev}
    (hsub : ∀ t ∈ flying, t ∈ x.flying) (hnum : x.s.r.numTokens ≤ e.s.r.numTokens)
    (htokens : e.s.r.numTokens ≤ maxReserve)
    (houts : ∀ t ∈ e.outs.filterMap Out.deqTok?, t ≤ e.s.r.numTokens) :
    (x.after flying m e).Placed where
  tokens := htokens
  flying t ht := by
    rcases List.mem_append.1 ht with ht | ht
    · exact Nat.le_trans (h.flying t (hsub t ht)) hnum
    · exact houts t ht

theorem Sys.Placed.step (h : x.Placed) (hstep : x.step self l = some x') : x'.Placed := by
  obtain ⟨flying, e, rfl, hok, -, -, hsub⟩ := Sys.step_cases hstep
  unfold resourceEventHandler at hok
  cases hm : l.msg.eventType with
  | get =>
    simp only [hm] at hok
    obtain ⟨-, ⟨-, -, rfl⟩ | ⟨-, -, rfl⟩ | ⟨-, -, -, rfl⟩⟩ := get_cases hok
    all_goals exact h.after hsub (Nat.le_refl _) h.tokens (by simp [Out.deqTok?])
  | free =>
    simp only [hm] at hok
    obtain ⟨htok, rfl⟩ := free_cases hok
    refine h.after hsub (Nat.le_refl _) h.tokens fun t ht => ?_
    obtain rfl : t = l.msg.i.tok := by simpa [Out.deqTok?] using ht
    exact htok
  | deq =>
    simp only [hm] at hok
    obtain ⟨-, rfl⟩ | ⟨p, rest, -, htok, -, ⟨-, rfl⟩ | ⟨-, -, rfl⟩⟩ := deq_cases hok
    · exact h.after hsub (Nat.le_refl _) h.tokens (by simp)
    · exact h.after hsub (Nat.le_refl _) h.tokens (by simp)
    · refine h.after hsub (Nat.le_refl _) h.tokens fun t ht => ?_
      obtain rfl : l.msg.i.tok = t := by simpa [Out.deqTok?] using ht
      exact htok
  | reserve =>
    simp only [hm] at hok
    obtain ⟨hroom, -, rfl⟩ := reserve_cases hok
    exact h.after hsub (Nat.le_succ _) hroom (by simp [Out.deqTok?])

theorem Sys.Placed.within (h : x.Placed) (l : Label) : PendingWithin x l := by
  intro i hi
  cases l with
  | event m =>
    rw [pendingPlaces] at hi
    split_ifs at hi with hm
    · rw [List.mem_singleton.1 hi]
      exact Nat.le_trans hm.2 h.tokens
    · cases hi
  | deq k m =>
    rw [pendingPlaces] at hi
    split_ifs at hi with hk
    · rw [List.mem_singleton.1 hi]
      exact Nat.le_trans (h.flying _ (List.mem_of_getElem? hk)) h.tokens
    · cases hi

/-- **Places.**  The calls of a run stay within the arrays, and reservations without a place are
refused, exactly if there is no reservation when all places are taken.  The events of the LP stay
within its queues in any case. -/
theorem places_within_iff (self : Lpid) (avail : UInt64) (cs : List Call) (ls : List Label) :
    (calls.Meets Within (Account.init avail) cs ↔ calls.Meets NotFull (Account.init avail) cs) ∧
      (machine self).Meets PendingWithin (Sys.init avail) ls := by
  constructor
  · exact Machine.meets_congr (I := fun a => a.r.numTokens ≤ maxReserve)
      (fun _ _ _ hnum h => Account.numTokens_step hnum h) (fun _ _ hnum => within_iff hnum)
      (Nat.zero_le _)
  · exact Machine.meets_of_invariant (fun _ _ _ hx h => hx.step h) (fun _ l hx => hx.within l)
      (Sys.init_placed avail)

end Places

/-- Nine reservations of one unit. -/
def nineReservations : List Call := List.replicate 9 (.reserve 1)

/-- The ninth one goes to place 9. -/
theorem ninth_not_within : ¬calls.Meets Within (Account.init 100) nineReservations := by
  intro h
  obtain ⟨-, h⟩ := h
  obtain ⟨-, h⟩ := h _ rfl
  obtain ⟨-, h⟩ := h _ rfl
  obtain ⟨-, h⟩ := h _ rfl
  obtain ⟨-, h⟩ := h _ rfl
  obtain ⟨-, h⟩ := h _ rfl
  obtain ⟨-, h⟩ := h _ rfl
  obtain ⟨-, h⟩ := h _ rfl
  obtain ⟨h, -⟩ := h _ rfl
  exact absurd (h.places 9 (by decide)) (by decide)

/-! ### The peak -/

/-- The states since the maximum of pool `i` changed. -/
def sinceChange (i : ℕ) : List Res → List Res
  | [] => []
  | r :: past => (r :: past).takeWhile fun s => i ≤ s.numTokens ∧ s.max i = r.max i

/-- The units of pool `i` that were in use in some states (`resource_get_used`). -/
def usedIn (i : ℕ) (states : List Res) : Set UInt64 := {u | ∃ s ∈ states, s.max i - s.avail i = u}

/-- What `resource_finalize` prints of a pool. -/
def Res.peak (r : Res) (i : ℕ) : UInt64 := r.max i - r.minAvail i

/-- **The statistic** is right. -/
structure Account.Statistic (a : Account) : Prop where
  avail : ∀ i ≤ a.r.numTokens, a.r.avail i ≤ a.r.max i
  minAvail : ∀ i ≤ a.r.numTokens, a.r.minAvail i ≤ a.r.avail i
  total : ∑ i ∈ Finset.range (a.r.numTokens + 1), (a.r.max i).toNat = a.r.maxAll.toNat
  peak : ∀ i ≤ a.r.numTokens, IsGreatest (usedIn i (sinceChange i a.past)) (a.r.peak i)
  noWrap : ∀ i ≤ a.r.numTokens, (a.r.peak i).toNat + (a.r.minAvail i).toNat = (a.r.max i).toNat

/-- Nobody gives back more than what he has. -/
def FreesHeld (a : Account) : Call → Prop
  | .free req tok => req.toNat ≤ a.held tok
  | _ => True

instance (a : Account) : ∀ c, Decidable (FreesHeld a c)
  | .get _ _ => inferInstanceAs (Decidable True)
  | .free req tok => inferInstanceAs (Decidable (req.toNat ≤ a.held tok))
  | .reserve _ => inferInstanceAs (Decidable True)

/-- If a reservation takes units, the general pool has its minimum after it. -/
def ReservesAtMin (a : Account) : Call → Prop
  | .reserve req => maxReserve ≤ a.r.numTokens ∨ req = 0 ∨ a.r.avail 0 < req ∨
      a.r.avail 0 - req = a.r.minAvail 0
  | _ => True

instance (a : Account) : ∀ c, Decidable (ReservesAtMin a c)
  | .get _ _ => inferInstanceAs (Decidable True)
  | .free _ _ => inferInstanceAs (Decidable True)
  | .reserve _ => inferInstanceAs (Decidable (_ ∨ _))

/-- The units of a pool are there or with callers, and a peak of what was in use is known. -/
structure PoolOk (avail max minAvail : UInt64) (held : ℕ) (used : Set UInt64) : Prop where
  balance : avail.toNat + held = max.toNat
  least : minAvail ≤ avail
  peak : IsGreatest used (max - minAvail)

namespace PoolOk

variable {avail avail' max minAvail req : UInt64} {held held' : ℕ} {used : Set UInt64}

theorem avail_le (h : PoolOk avail max minAvail held used) : avail ≤ max :=
  UInt64.le_iff_toNat_le.2 (h.balance ▸ Nat.le_add_right _ _)

theorem min_le (h : PoolOk avail max minAvail held used) : minAvail ≤ max :=
  UInt64.le_trans h.least h.avail_le

theorem sub_le_sub {a b c : UInt64} (hab : a ≤ b) (hb : b ≤ c) : c - b ≤ c - a := by
  have hab := UInt64.le_iff_toNat_le.1 hab
  have hb' := UInt64.le_iff_toNat_le.1 hb
  rw [UInt64.le_iff_toNat_le, UInt64.toNat_sub_of_le _ _ hb,
    UInt64.toNat_sub_of_le _ _ (UInt64.le_iff_toNat_le.2 (by omega))]
  omega

theorem min_of_le {a b : UInt64} (h : a ≤ b) : min a b = a := if_pos h

theorem min_of_ge {a b : UInt64} (h : b ≤ a) : min a b = b := by
  by_cases hle : a ≤ b
  · rw [min_of_le hle, UInt64.le_antisymm hle h]
  · exact if_neg hle

/-- Another state of the pool, with the minimum that `resource_get` computes. -/
theorem next (h : PoolOk avail max minAvail held used) (hbal : avail'.toNat + held' = max.toNat) :
    PoolOk avail' max (min avail' minAvail) held' (insert (max - avail') used) := by
  have havail : avail' ≤ max := UInt64.le_iff_toNat_le.2 (hbal ▸ Nat.le_add_right _ _)
  rcases UInt64.le_total avail' minAvail with hle | hle
  · rw [min_of_le hle]
    refine ⟨hbal, UInt64.le_refl _, Set.mem_insert _ _, ?_⟩
    rintro u (rfl | hu)
    · exact UInt64.le_refl _
    · exact UInt64.le_trans (h.peak.2 hu) (sub_le_sub hle h.min_le)
  · rw [min_of_ge hle]
    refine ⟨hbal, hle, Set.mem_insert_of_mem _ h.peak.1, ?_⟩
    rintro u (rfl | hu)
    · exact sub_le_sub hle havail
    · exact h.peak.2 hu

theorem fresh (hbal : avail.toNat + held = max.toNat) :
    PoolOk avail max avail held {max - avail} := by
  refine ⟨hbal, UInt64.le_refl _, Set.mem_singleton _, ?_⟩
  rintro u rfl
  exact UInt64.le_refl _

end PoolOk

/-- **The invariant** of a resource whose statistic is right. -/
structure Account.Inv (a : Account) : Prop where
  tokens : a.r.numTokens ≤ maxReserve
  present : ∃ rest, a.past = a.r :: rest
  pools : ∀ i ≤ a.r.numTokens, PoolOk (a.r.avail i) (a.r.max i) (a.r.minAvail i) (a.held i)
    (usedIn i (sinceChange i a.past))
  beyond : ∀ i, a.r.numTokens < i → a.held i = 0
  total : ∑ i ∈ Finset.range (a.r.numTokens + 1), (a.r.max i).toNat = a.r.maxAll.toNat

section Peak

variable {a a' : Account} {r r' : Res} {past : List Res} {held : ℕ → ℕ} {req : UInt64} {i tok : ℕ}

theorem usedIn_cons (s : Res) (l : List Res) :
    usedIn i (s :: l) = insert (s.max i - s.avail i) (usedIn i l) := by
  ext u
  simp [usedIn, eq_comm]

/-- The states go on as long as the maximum stays. -/
theorem usedIn_same (past : List Res) (hi : i ≤ r.numTokens) (hi' : i ≤ r'.numTokens)
    (hmax : r'.max i = r.max i) :
    usedIn i (sinceChange i (r' :: r :: past)) =
      insert (r.max i - r'.avail i) (usedIn i (sinceChange i (r :: past))) := by
  have hsince : sinceChange i (r' :: r :: past) = r' :: sinceChange i (r :: past) := by
    simp [sinceChange, hi', hi, hmax]
  rw [hsince, usedIn_cons, hmax]

theorem usedIn_fresh (hi' : i ≤ r'.numTokens) (hnew : ¬(i ≤ r.numTokens ∧ r.max i = r'.max i)) :
    usedIn i (sinceChange i (r' :: r :: past)) = {r'.max i - r'.avail i} := by
  have hsince : sinceChange i (r' :: r :: past) = [r'] := by
    simp [sinceChange, hi', hnew]
  rw [hsince, usedIn_cons]
  simp [usedIn]

theorem Account.init_inv (avail : UInt64) : (Account.init avail).Inv where
  tokens := Nat.zero_le _
  present := ⟨[], rfl⟩
  pools i hi := by
    have hused : usedIn i (sinceChange i (Account.init avail).past) =
        {(resourceInit avail).max i - (resourceInit avail).avail i} := by
      have hsince : sinceChange i (Account.init avail).past = [resourceInit avail] := by
        simp [sinceChange, Account.init, show i = 0 from Nat.le_zero.1 hi]
      rw [hsince, usedIn_cons]
      simp [usedIn]
    rw [hused]
    exact PoolOk.fresh rfl
  beyond _ _ := rfl
  total := by simp [Account.init, resourceInit]

/-- A state in which the maxima are the same. -/
theorem Account.Inv.next (h : a.Inv) (hnum : r.numTokens = a.r.numTokens) (hmax : r.max = a.r.max)
    (hall : r.maxAll = a.r.maxAll) (hbeyond : ∀ i, a.r.numTokens < i → held i = 0)
    (hpool : ∀ i ≤ a.r.numTokens, (r.avail i).toNat + held i = (a.r.max i).toNat ∧
      r.minAvail i = min (r.avail i) (a.r.minAvail i)) : (a.next r held).Inv := by
  obtain ⟨rest, hrest⟩ := h.present
  refine ⟨?_, ⟨a.past, rfl⟩, fun i hi => ?_, fun i hi => ?_, ?_⟩
  · exact Nat.le_trans (Nat.le_of_eq hnum) h.tokens
  · have hi : i ≤ r.numTokens := hi
    have hi' : i ≤ a.r.numTokens := hnum ▸ hi
    obtain ⟨hbal, hmin⟩ := hpool i hi'
    have hused := usedIn_same rest hi' hi (congrFun hmax i)
    have hok := (h.pools i hi').next hbal
    rw [← hmin, hrest, ← hused, ← hrest, ← hmax] at hok
    exact hok
  · exact hbeyond i (hnum ▸ hi)
  · simp only [Account.next, hnum, hmax, hall]
    exact h.total

theorem Account.Inv.unchanged (h : a.Inv) (hi : i ≤ a.r.numTokens) :
    (a.r.avail i).toNat + a.held i = (a.r.max i).toNat ∧
      a.r.minAvail i = min (a.r.avail i) (a.r.minAvail i) :=
  ⟨(h.pools i hi).balance, (PoolOk.min_of_ge (h.pools i hi).least).symm⟩

theorem Account.Inv.take (h : a.Inv) (htok : tok ≤ a.r.numTokens) (havail : req ≤ a.r.avail tok) :
    (a.next (a.r.take req tok) (update a.held tok (a.held tok + req.toNat))).Inv := by
  refine h.next rfl rfl rfl (fun i hi => ?_) fun i hi => ?_
  · rw [update_of_ne (by omega)]
    exact h.beyond i hi
  · simp only [Res.take]
    by_cases heq : i = tok
    · subst heq
      simp only [update_self, and_true]
      have hbal := (h.pools i hi).balance
      have hle := UInt64.le_iff_toNat_le.1 havail
      rw [UInt64.toNat_sub_of_le _ _ havail]
      omega
    · simp only [update_of_ne heq]
      exact h.unchanged hi

theorem Account.Inv.give (h : a.Inv) (htok : tok ≤ a.r.numTokens)
    (hheld : req.toNat ≤ a.held tok) :
    (a.next (a.r.give req tok) (update a.held tok (a.held tok - req.toNat))).Inv := by
  refine h.next rfl rfl rfl (fun i hi => ?_) fun i hi => ?_
  · rw [update_of_ne (by omega)]
    exact h.beyond i hi
  · simp only [Res.give]
    by_cases heq : i = tok
    · subst heq
      simp only [update_self]
      have hbal := (h.pools i hi).balance
      have hlt := (a.r.max i).toNat_lt
      -- what comes back fits into the pool
      have hsum : (a.r.avail i + req).toNat = (a.r.avail i).toNat + req.toNat := by
        rw [UInt64.toNat_add]
        exact Nat.mod_eq_of_lt (by omega)
      refine ⟨by omega, (PoolOk.min_of_ge ?_).symm⟩
      refine UInt64.le_trans (h.pools i hi).least (UInt64.le_iff_toNat_le.2 ?_)
      omega
    · simp only [update_of_ne heq]
      exact h.unchanged hi

theorem addPool_other (h0 : i ≠ 0) (hnew : i ≠ r.numTokens + 1) :
    (r.addPool req).avail i = r.avail i ∧ (r.addPool req).max i = r.max i ∧
      (r.addPool req).minAvail i = r.minAvail i := by
  simp [Res.addPool, h0, hnew]

theorem addPool_general : (r.addPool req).avail 0 = r.avail 0 - req ∧
    (r.addPool req).max 0 = r.max 0 - req ∧ (r.addPool req).minAvail 0 = r.minAvail 0 := by
  simp [Res.addPool]

theorem addPool_new : (r.addPool req).avail (r.numTokens + 1) = req ∧
    (r.addPool req).max (r.numTokens + 1) = req ∧
      (r.addPool req).minAvail (r.numTokens + 1) = req := by
  simp [Res.addPool]

theorem addPool_total (havail : req ≤ r.max 0) :
    ∑ i ∈ Finset.range ((r.addPool req).numTokens + 1), ((r.addPool req).max i).toNat =
      ∑ i ∈ Finset.range (r.numTokens + 1), (r.max i).toNat := by
  have hle := UInt64.le_iff_toNat_le.1 havail
  have hother : ∑ i ∈ Finset.range r.numTokens, ((r.addPool req).max (i + 1)).toNat =
      ∑ i ∈ Finset.range r.numTokens, (r.max (i + 1)).toNat := by
    refine Finset.sum_congr rfl fun i hi => ?_
    have hi := Finset.mem_range.1 hi
    rw [(addPool_other (Nat.succ_ne_zero i) (by omega)).2.1]
  have hnum : (r.addPool req).numTokens = r.numTokens + 1 := rfl
  rw [hnum, Finset.sum_range_succ', Finset.sum_range_succ, hother, addPool_general.2.1,
    addPool_new.2.1, UInt64.toNat_sub_of_le _ _ havail, Finset.sum_range_succ']
  omega

/-- A reservation of some units changes the maximum of the general pool. -/
theorem sub_ne_self (h0 : req ≠ 0) (hle : req ≤ r.max 0) : r.max 0 - req ≠ r.max 0 := by
  intro heq
  have hnat := congrArg UInt64.toNat heq
  rw [UInt64.toNat_sub_of_le _ _ hle] at hnat
  have hle := UInt64.le_iff_toNat_le.1 hle
  refine h0 (UInt64.toNat_inj.1 ?_)
  rw [UInt64.toNat_zero]
  omega

theorem Account.Inv.addPool_general (h : a.Inv) (havail : req ≤ a.r.avail 0)
    (hmin : req = 0 ∨ a.r.avail 0 - req = a.r.minAvail 0) :
    PoolOk (a.r.avail 0 - req) (a.r.max 0 - req) (a.r.minAvail 0) (a.held 0)
      (usedIn 0 (sinceChange 0 (a.r.addPool req :: a.past))) := by
  obtain ⟨rest, hrest⟩ := h.present
  have hpool := h.pools 0 (Nat.zero_le _)
  obtain ⟨ha, hm, -⟩ := @Resource.addPool_general a.r req
  have hle := UInt64.le_iff_toNat_le.1 havail
  have hmax := UInt64.le_trans havail hpool.avail_le
  have hbal : (a.r.avail 0 - req).toNat + a.held 0 = (a.r.max 0 - req).toNat := by
    rw [UInt64.toNat_sub_of_le _ _ havail, UInt64.toNat_sub_of_le _ _ hmax]
    have := hpool.balance
    omega
  by_cases h0 : req = 0
  · subst h0
    simp only [UInt64.sub_zero] at hbal hm ha ⊢
    have hok := hpool.next hbal
    rw [PoolOk.min_of_ge hpool.least, hrest] at hok
    rw [hrest, usedIn_same _ (Nat.zero_le _) (Nat.zero_le _) hm, ha]
    exact hok
  · have hne := (sub_ne_self h0 hmax).symm
    rw [hrest, usedIn_fresh (Nat.zero_le _) (by simpa [hm] using hne), hm, ha,
      ← hmin.resolve_left h0]
    exact PoolOk.fresh hbal

theorem Account.Inv.reserve (h : a.Inv) (hroom : a.r.numTokens < maxReserve)
    (havail : req ≤ a.r.avail 0) (hmin : req = 0 ∨ a.r.avail 0 - req = a.r.minAvail 0) :
    (a.next (a.r.addPool req) a.held).Inv := by
  obtain ⟨rest, hrest⟩ := h.present
  have hmax := UInt64.le_trans havail (h.pools 0 (Nat.zero_le _)).avail_le
  refine ⟨hroom, ⟨a.past, rfl⟩, fun i hi => ?_, fun i hi => ?_, ?_⟩
  · simp only [Account.next] at hi ⊢
    by_cases h0 : i = 0
    · subst h0
      rw [Resource.addPool_general.1, Resource.addPool_general.2.1, Resource.addPool_general.2.2]
      exact h.addPool_general havail hmin
    · by_cases hnew : i = a.r.numTokens + 1
      · subst hnew
        have hheld := h.beyond (a.r.numTokens + 1) (Nat.lt_succ_self _)
        rw [hrest, usedIn_fresh hi (by omega), addPool_new.1, addPool_new.2.1, addPool_new.2.2]
        exact PoolOk.fresh (by rw [hheld, Nat.add_zero])
      · have hi' : i ≤ a.r.numTokens := Nat.lt_succ_iff.1 (Nat.lt_of_le_of_ne hi hnew)
        obtain ⟨ha, hm, hmn⟩ := @addPool_other a.r req i h0 hnew
        obtain ⟨hbal, hmin'⟩ := h.unchanged hi'
        have hok := (h.pools i hi').next hbal
        rw [← hmin', hrest] at hok
        rw [hrest, usedIn_same _ hi' hi hm, ha, hm, hmn]
        exact hok
  · exact h.beyond i (Nat.lt_of_succ_lt hi)
  · exact (addPool_total hmax).trans h.total

theorem Account.Inv.statistic (h : a.Inv) : a.Statistic where
  avail i hi := (h.pools i hi).avail_le
  minAvail i hi := (h.pools i hi).least
  total := h.total
  peak i hi := (h.pools i hi).peak
  noWrap i hi := by
    have hle := (h.pools i hi).min_le
    rw [Res.peak, UInt64.toNat_sub_of_le _ _ hle]
    exact Nat.sub_add_cancel (UInt64.le_iff_toNat_le.1 hle)

theorem Account.Inv.step (h : a.Inv) {c : Call} (hheld : FreesHeld a c) (hmin : ReservesAtMin a c)
    (hstep : a.step c = some a') : a'.Inv := by
  obtain rfl | ⟨req, tok, rfl, htok, havail, -, rfl⟩ | ⟨req, tok, rfl, htok, rfl⟩ |
    ⟨req, rfl, hroom, havail, rfl⟩ := Account.step_cases h.tokens hstep
  · exact h.next rfl rfl rfl h.beyond fun i hi => h.unchanged hi
  · exact h.take htok havail
  · exact h.give htok hheld
  · obtain hfull | hmin | hlt | hmin := hmin
    · exact absurd hroom (Nat.not_lt.2 hfull)
    · exact h.reserve hroom havail (.inl hmin)
    · exact absurd hlt (UInt64.not_lt.2 havail)
    · exact h.reserve hroom havail (.inr hmin)

theorem Account.Inv.reserve_wrong (h : a.Inv) {c : Call} (hmin : ¬ReservesAtMin a c) :
    ∃ a', a.step c = some a' ∧ ¬a'.Statistic := by
  cases c with
  | get => exact absurd trivial hmin
  | free => exact absurd trivial hmin
  | reserve req =>
    obtain ⟨hroom, h0, havail, hne⟩ : a.r.numTokens < maxReserve ∧ req ≠ 0 ∧
        req ≤ a.r.avail 0 ∧ a.r.avail 0 - req ≠ a.r.minAvail 0 := by
      simpa [ReservesAtMin] using hmin
    obtain ⟨hlt, -⟩ | ⟨-, hres⟩ := reserve_cases_room req 0 hroom
    · exact absurd hlt (UInt64.not_lt.2 havail)
    refine ⟨a.next (a.r.addPool req) a.held, by simp [Account.step, hres], fun hstat => hne ?_⟩
    obtain ⟨rest, hrest⟩ := h.present
    obtain ⟨ha, hm, hmn⟩ := @Resource.addPool_general a.r req
    have hmax := UInt64.le_trans havail (h.pools 0 (Nat.zero_le _)).avail_le
    have hused : usedIn 0 (sinceChange 0 (a.r.addPool req :: a.past)) =
        {a.r.max 0 - req - (a.r.avail 0 - req)} := by
      have hchanged := (sub_ne_self h0 hmax).symm
      rw [hrest, usedIn_fresh (Nat.zero_le _) (by simpa [hm] using hchanged), hm, ha]
    -- there is one state since the reservation, in which the peak would have been
    have hpeak := (hstat.peak 0 (Nat.zero_le _)).1
    have hmin := hstat.minAvail 0 (Nat.zero_le _)
    have hle := hstat.avail 0 (Nat.zero_le _)
    simp only [Account.next, hused, Res.peak, hm, ha, hmn, Set.mem_singleton_iff] at hpeak hmin hle
    have hnat := congrArg UInt64.toNat hpeak
    rw [UInt64.toNat_sub_of_le _ _ hle, UInt64.toNat_sub_of_le _ _ (UInt64.le_trans hmin hle)]
      at hnat
    have hmin := UInt64.le_iff_toNat_le.1 hmin
    have hle := UInt64.le_iff_toNat_le.1 hle
    exact UInt64.toNat_inj.1 (by omega)

/-- **The peak.**  While nobody gives back more than he has, the statistic is right all along
exactly if units are reserved only when the general pool has its minimum after it. -/
theorem peaks_iff (avail : UInt64) (cs : List Call)
    (hheld : calls.Meets FreesHeld (Account.init avail) cs) :
    calls.Along Account.Statistic (Account.init avail) cs ↔
      calls.Meets ReservesAtMin (Account.init avail) cs :=
  Machine.along_iff_of_meets (fun _ _ _ ha hheld hmin hstep => ha.step hheld hmin hstep)
    (fun _ _ ha _ hmin => ha.reserve_wrong hmin) (fun _ ha => ha.statistic)
    (Account.init_inv avail) hheld

end Peak

/-- 60 of 100 units are taken and given back, 60 are reserved, and 10 of the others are taken. -/
def takenAndReserved : List Call := [.get 60 0, .free 60 0, .reserve 60, .get 10 0]

theorem peaks_iff_takenAndReserved :
    calls.Along Account.Statistic (Account.init 100) takenAndReserved :=
  (peaks_iff 100 takenAndReserved (by decide)).2 (by decide)

/-- When 60 of 100 units are reserved, 40 are available, and the minimum stays at 100. -/
theorem reserve_not_statistic : calls.Meets FreesHeld (Account.init 100) [.reserve 60] ∧
    ¬calls.Along Account.Statistic (Account.init 100) [.reserve 60] := by
  refine ⟨by decide, fun h => ?_⟩
  have hstat := (h.2 _ rfl).minAvail 0 (Nat.zero_le _)
  exact absurd hstat (by decide)

/-! ### Requests that cannot be met -/

section Unsatisfiable

variable {self : Lpid} {s : State} {m : Msg}

/-- **Too much.**  A request for more than a pool can ever have is not told apart from one for more
than it has now: there is no error, and it is refused for now or waits. -/
theorem unsatisfiable_waits (self : Lpid) (s : State) (m : Msg) (htype : m.eventType = .get)
    (htok : m.i.tok ≤ s.r.numTokens) (havail : s.r.avail m.i.tok ≤ s.r.max m.i.tok)
    (hreq : s.r.max m.i.tok < m.i.req) :
    resourceGet m.i.req m.i.tok s.r = (1, s.r) ∧
    resourceEventHandler self s m ≠ .error .twError ∧
    (m.i.blockOnUnavail = true → ∃ e, resourceEventHandler self s m = .ok e ∧
      e.s.pending m.i.tok = s.pending m.i.tok ++ [m.i] ∧ e.outs = []) := by
  have hlt : s.r.avail m.i.tok < m.i.req := UInt64.lt_of_le_of_lt havail hreq
  have hget : resourceGet m.i.req m.i.tok s.r = (1, s.r) := by
    rw [resourceGet, if_neg (Nat.not_lt.2 htok), if_pos hlt]
  have hmin : resourceGetMinAvail m.i.tok s.r = some (s.r.minAvail m.i.tok) :=
    if_neg (Nat.not_lt.2 htok)
  -- whether others wait or not
  have hevent : resourceEventHandler self s m =
      settleGet self 1 s.r { Ev.start s m with m := m.saveMin (s.r.minAvail m.i.tok) } := by
    simp only [resourceEventHandler, htype, handleResourceGet, Ev.start, hmin, hget, ite_self]
  refine ⟨hget, ?_, fun hblock => ?_⟩
  · rw [hevent, settleGet, if_neg (by decide)]
    split_ifs
    · simp
    · rw [answerGet, resourceResponse]
      split_ifs <;> simp [Except.map]
  · rw [hevent, settleGet, if_neg (by decide), if_pos ⟨by decide, hblock⟩]
    exact ⟨_, rfl, update_self _ _ _, rfl⟩

/-- A request for too much waits, and others behind it. -/
structure Sys.Stuck (t : ℕ) (p : Request) (behind : List Request) (x : Sys) : Prop where
  solvent : x.Solvent
  token : t ≤ x.s.r.numTokens
  big : x.s.r.max t < p.req
  waits : ∃ before later, x.s.pending t = before ++ p :: (behind ++ later)

variable {x x' : Sys} {t : ℕ} {p : Request} {behind : List Request}

theorem Sys.Solvent.avail_le (h : x.Solvent) (ht : t ≤ x.s.r.numTokens) :
    x.s.r.avail t ≤ x.s.r.max t := by
  have hbal := (h.books t).balance ht
  have hnonneg := (h.books t).nonneg
  exact UInt64.le_iff_toNat_le.2 (by omega)

/-- Pools do not become larger. -/
theorem Sys.Solvent.max_step (h : x.Solvent) (hstep : x.step self l = some x')
    (ht : t ≤ x.s.r.numTokens) :
    x.s.r.numTokens ≤ x'.s.r.numTokens ∧ x'.s.r.max t ≤ x.s.r.max t := by
  obtain ⟨flying, e, rfl, hok, -⟩ := Sys.step_cases hstep
  simp only [Sys.after]
  unfold resourceEventHandler at hok
  cases hm : l.msg.eventType with
  | get =>
    simp only [hm] at hok
    obtain ⟨-, ⟨-, -, rfl⟩ | ⟨-, -, rfl⟩ | ⟨-, -, -, rfl⟩⟩ := get_cases hok
    all_goals exact ⟨Nat.le_refl _, UInt64.le_refl _⟩
  | free =>
    simp only [hm] at hok
    obtain ⟨-, rfl⟩ := free_cases hok
    exact ⟨Nat.le_refl _, UInt64.le_refl _⟩
  | deq =>
    simp only [hm] at hok
    obtain ⟨-, rfl⟩ | ⟨p, rest, -, -, -, ⟨-, rfl⟩ | ⟨-, -, rfl⟩⟩ := deq_cases hok
    all_goals exact ⟨Nat.le_refl _, UInt64.le_refl _⟩
  | reserve =>
    simp only [hm] at hok
    obtain ⟨-, havail, rfl⟩ := reserve_cases hok
    refine ⟨Nat.le_succ _, ?_⟩
    simp only [State.draw, State.setR]
    by_cases h0 : t = 0
    · rw [h0, addPool_general.2.1]
      exact UInt64.sub_le (UInt64.le_trans havail (h.avail_le (Nat.zero_le _)))
    · rw [(addPool_other h0 (by omega)).2.1]
      exact UInt64.le_refl _

theorem Sys.Stuck.pending_step (h : x.Stuck t p behind) (hstep : x.step self l = some x') :
    ∃ before later, x'.s.pending t = before ++ p :: (behind ++ later) := by
  obtain ⟨flying, e, rfl, hok, -⟩ := Sys.step_cases hstep
  obtain ⟨before, later, hwaits⟩ := h.waits
  simp only [Sys.after]
  unfold resourceEventHandler at hok
  cases hm : l.msg.eventType with
  | get =>
    simp only [hm] at hok
    obtain ⟨-, ⟨-, -, rfl⟩ | ⟨-, -, rfl⟩ | ⟨-, -, -, rfl⟩⟩ := get_cases hok
    · by_cases ht : t = l.msg.i.tok
      · refine ⟨before, later ++ [l.msg.i], ?_⟩
        simp [State.setPending, ← ht, hwaits]
      · exact ⟨before, later, (update_of_ne ht _ _).trans hwaits⟩
    · exact ⟨before, later, hwaits⟩
    · exact ⟨before, later, hwaits⟩
  | free =>
    simp only [hm] at hok
    obtain ⟨-, rfl⟩ := free_cases hok
    exact ⟨before, later, hwaits⟩
  | reserve =>
    simp only [hm] at hok
    obtain ⟨-, -, rfl⟩ := reserve_cases hok
    exact ⟨before, later, hwaits⟩
  | deq =>
    simp only [hm] at hok
    obtain ⟨-, rfl⟩ | ⟨q, rest, hq, -, -, ⟨-, rfl⟩ | ⟨havail, -, rfl⟩⟩ := deq_cases hok
    · exact ⟨before, later, hwaits⟩
    · exact ⟨before, later, hwaits⟩
    by_cases ht : t = l.msg.i.tok
    · subst ht
      have hqtok : q.tok = l.msg.i.tok := (h.solvent.inv _).tok q (by simp [hq])
      rw [hqtok] at havail
      cases before with
      | nil =>
        -- the first one is served only if it fits
        obtain ⟨rfl, -⟩ := List.cons.inj (hq.symm.trans hwaits)
        have hle := UInt64.le_trans havail (h.solvent.avail_le h.token)
        exact absurd h.big (UInt64.not_lt.2 hle)
      | cons q' before =>
        obtain ⟨-, hrest⟩ := List.cons.inj (hq.symm.trans hwaits)
        exact ⟨before, later, (update_self _ _ _).trans hrest⟩
    · exact ⟨before, later, (update_of_ne ht _ _).trans hwaits⟩

theorem Sys.Stuck.run {ls : List Label} (h : x.Stuck t p behind)
    (hfrees : (machine self).Meets FreesObtainedAt x ls)
    (hrun : (machine self).run x ls = some x') : x'.Stuck t p behind :=
  Machine.run_invariant_of_meets
    (fun _ _ _ hx hfree hstep =>
      have hmax := hx.solvent.max_step hstep hx.token
      ⟨hx.solvent.step hfree hstep, Nat.le_trans hx.token hmax.1,
        UInt64.lt_of_le_of_lt hmax.2 hx.big, hx.pending_step hstep⟩)
    h hfrees hrun

/-- **For ever.**  If after any run a request waits that is larger than its pool, then it waits
after any run that goes on from there, with all that have come behind it. -/
theorem unsatisfiable_stays (self : Lpid) (avail : UInt64) (ls ls' : List Label) (x x' : Sys)
    (t : ℕ) (p : Request) (before behind : List Request)
    (hfrees : (machine self).Meets FreesObtainedAt (Sys.init avail) ls)
    (hrun : (machine self).run (Sys.init avail) ls = some x)
    (hfrees' : (machine self).Meets FreesObtainedAt x ls')
    (hrun' : (machine self).run x ls' = some x') (htoken : t ≤ x.s.r.numTokens)
    (hbig : x.s.r.max t < p.req) (hwaits : x.s.pending t = before ++ p :: behind) :
    ∃ before' later, x'.s.pending t = before' ++ p :: (behind ++ later) := by
  have hsolvent : x.Solvent := Machine.run_invariant_of_meets
    (fun _ _ _ hx hl hstep => hx.step hl hstep) (Sys.init_solvent avail) hfrees hrun
  have hstuck : x.Stuck t p behind := by
    refine ⟨hsolvent, htoken, hbig, before, [], ?_⟩
    rw [List.append_nil, hwaits]
  exact (hstuck.run hfrees' hrun').waits

end Unsatisfiable

/-- A request for 11 of 10 units. -/
def elevenOfTen : Msg := callerMsg .get 11 0 true

theorem unsatisfiable_waits_elevenOfTen :
    resourceGet 11 0 (resourceInit 10) = (1, resourceInit 10) :=
  (unsatisfiable_waits 7 (State.init 10) elevenOfTen rfl (by decide) (by decide) (by decide)).1

/-- A request for one unit of which there are ten. -/
def oneBehind : List Label := [.event (callerMsg .get 1 0 true)]

theorem unsatisfiable_stays_elevenOfTen : ∃ x x',
    (machine 7).run (Sys.init 10) [.event elevenOfTen] = some x ∧
      (machine 7).run x oneBehind = some x' ∧
      ∃ before' later, x'.s.pending 0 = before' ++ elevenOfTen.i :: ([] ++ later) :=
  ⟨_, _, rfl, rfl, unsatisfiable_stays 7 10 [.event elevenOfTen] oneBehind _ _ 0 elevenOfTen.i [] []
    (by decide) rfl (by decide) rfl (by decide) (by decide) rfl⟩

/-- There is no error, and it waits. -/
theorem eleven_not_reported : (resourceGet 11 0 (resourceInit 10)).1 ≠ -1 ∧
    ∃ e, resourceEventHandler 7 (State.init 10) elevenOfTen = .ok e ∧
      e.s.pending 0 = [elevenOfTen.i] :=
  ⟨by decide, _, rfl, rfl⟩

end CodesSim.Resource
