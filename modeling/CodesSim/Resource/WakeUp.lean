import CodesSim.Lib.Machine
import CodesSim.Lib.Outcome
import CodesSim.Resource.Basic

/-!
# The resource LP forgets nobody

Requests to a resource LP, units that are given back, reservations, and the events that the LP sends
to itself, in any order.  Whenever the first request that waits for a pool fits into it, an event to
look at it is on its way (`wakeUps_and_order`): a request that waits at the front did not fit when
it was looked at, and since then units have only come back with such an event.  Requests that wait
are served in the order in which they came, and none is served past them.
-/

namespace CodesSim.Resource

open Function Outcome

/-! ### What the handlers do -/

section Cases

variable {self : Lpid} {s : State} {m : Msg} {e e' : Ev} {req : UInt64} {tok : ℕ} {r : Res}

/-- The pool after units were taken. -/
def Res.take (r : Res) (req : UInt64) (tok : ℕ) : Res :=
  { r with
    avail := update r.avail tok (r.avail tok - req)
    minAvail := update r.minAvail tok (min (r.avail tok - req) (r.minAvail tok)) }

/-- The pool after units were given back. -/
def Res.give (r : Res) (req : UInt64) (tok : ℕ) : Res :=
  { r with avail := update r.avail tok (r.avail tok + req) }

theorem resourceGet_of_fits (htok : tok ≤ r.numTokens) (havail : req ≤ r.avail tok)
    (hmax : req ≤ r.max tok) : resourceGet req tok r = (0, r.take req tok) := by
  rw [resourceGet, if_neg (Nat.not_lt.2 htok), if_neg (UInt64.not_lt.2 havail),
    if_neg (UInt64.not_lt.2 hmax)]
  rfl

/-- What a request for units can meet. -/
theorem resourceGet_cases (req : UInt64) (htok : tok ≤ r.numTokens) :
    (r.avail tok < req ∧ resourceGet req tok r = (1, r)) ∨
    (req ≤ r.avail tok ∧ r.max tok < req ∧ resourceGet req tok r = (-1, r)) ∨
    (req ≤ r.avail tok ∧ req ≤ r.max tok ∧ resourceGet req tok r = (0, r.take req tok)) := by
  by_cases havail : req ≤ r.avail tok
  · by_cases hmax : req ≤ r.max tok
    · exact .inr (.inr ⟨havail, hmax, resourceGet_of_fits htok havail hmax⟩)
    · refine .inr (.inl ⟨havail, UInt64.not_le.1 hmax, ?_⟩)
      rw [resourceGet, if_neg (Nat.not_lt.2 htok), if_neg (UInt64.not_lt.2 havail),
        if_pos (UInt64.not_le.1 hmax)]
  · refine .inl ⟨UInt64.not_le.1 havail, ?_⟩
    rw [resourceGet, if_neg (Nat.not_lt.2 htok), if_pos (UInt64.not_le.1 havail)]

theorem resourceResponse_ok {cb : CbParams} {ret : ℤ}
    (h : resourceResponse self cb ret tok e = .ok e') : e' = { e with
      s := e.s.draw 1
      outs := e.outs ++ [.response (cb.answer self ⟨ret, tok⟩)] } := by
  rw [resourceResponse] at h
  split_ifs at h
  cases h
  rfl

theorem answerGet_ok {ret : ℤ} (h : answerGet self ret e = .ok e') :
    e' = { e with
      s := e.s.draw 1
      b := { e.b with
        c1 := true
        c2 := ret = 0 }
      outs := e.outs ++ [.response (e.m.i.cb.answer self ⟨ret, tokenDummy⟩)] } := by
  unfold answerGet at h
  obtain ⟨u, hr, rfl⟩ := map_eq_ok h
  cases resourceResponse_ok hr
  rfl

theorem settleGet_one (h : settleGet self 1 r e = .ok e') :
    e.m.i.blockOnUnavail = true ∧
      e' = { e with
        s := e.s.setPending e.m.i.tok (e.s.pending e.m.i.tok ++ [e.m.i])
        b := { e.b with
          c0 := true
          c2 := false } } ∨
    e.m.i.blockOnUnavail = false ∧
      e' = { e with
        s := (e.s.setR r).draw 1
        b := { e.b with
          c1 := true
          c2 := false }
        outs := e.outs ++ [.response (e.m.i.cb.answer self ⟨1, tokenDummy⟩)] } := by
  unfold settleGet at h
  rw [if_neg (by decide)] at h
  cases hblock : e.m.i.blockOnUnavail with
  | true =>
    rw [if_pos ⟨by decide, hblock⟩] at h
    exact .inl ⟨rfl, (Except.ok.inj h).symm⟩
  | false =>
    rw [if_neg (by simp [hblock])] at h
    exact .inr ⟨rfl, answerGet_ok h⟩

/-- **A request** waits behind others or because it does not fit, is refused, or is met. -/
theorem get_cases (h : handleResourceGet self (Ev.start s m) = .ok e) :
    m.i.tok ≤ s.r.numTokens ∧
    ((s.pending m.i.tok ≠ [] ∨ s.r.avail m.i.tok < m.i.req) ∧ m.i.blockOnUnavail = true ∧
        e = ⟨s.setPending m.i.tok (s.pending m.i.tok ++ [m.i]), ⟨true, false, false⟩,
          m.saveMin (s.r.minAvail m.i.tok), []⟩ ∨
      (s.pending m.i.tok ≠ [] ∨ s.r.avail m.i.tok < m.i.req) ∧ m.i.blockOnUnavail = false ∧
        e = ⟨s.draw 1, ⟨false, true, false⟩, m.saveMin (s.r.minAvail m.i.tok),
          [.response (m.i.cb.answer self ⟨1, tokenDummy⟩)]⟩ ∨
      s.pending m.i.tok = [] ∧ m.i.req ≤ s.r.avail m.i.tok ∧ m.i.req ≤ s.r.max m.i.tok ∧
        e = ⟨(s.setR (s.r.take m.i.req m.i.tok)).draw 1, ⟨false, true, true⟩,
          m.saveMin (s.r.minAvail m.i.tok),
          [.response (m.i.cb.answer self ⟨0, tokenDummy⟩)]⟩) := by
  unfold handleResourceGet at h
  by_cases htok : m.i.tok ≤ s.r.numTokens
  case neg =>
    have hmin : resourceGetMinAvail m.i.tok s.r = none := if_pos (Nat.not_le.1 htok)
    simp only [Ev.start, hmin] at h
    cases h
  have hmin : resourceGetMinAvail m.i.tok s.r = some (s.r.minAvail m.i.tok) :=
    if_neg (Nat.not_lt.2 htok)
  simp only [Ev.start, hmin] at h
  refine ⟨htok, ?_⟩
  by_cases hp : s.pending m.i.tok = []
  · simp only [hp, ne_eq, not_true_eq_false, if_false] at h
    obtain ⟨hlt, hget⟩ | ⟨-, -, hget⟩ | ⟨havail, hmax, hget⟩ := resourceGet_cases m.i.req htok
    · rw [hget] at h
      obtain ⟨hblock, he⟩ | ⟨hblock, he⟩ := settleGet_one h
      · exact .inl ⟨.inr hlt, hblock, he⟩
      · exact .inr (.inl ⟨.inr hlt, hblock, he⟩)
    · rw [hget] at h
      cases h
    · rw [hget] at h
      exact .inr (.inr ⟨hp, havail, hmax, answerGet_ok h⟩)
  · simp only [hp, ne_eq, not_false_eq_true, if_true] at h
    obtain ⟨hblock, he⟩ | ⟨hblock, he⟩ := settleGet_one h
    · exact .inl ⟨.inl hp, hblock, he⟩
    · exact .inr (.inl ⟨.inl hp, hblock, he⟩)

/-- **Units that are given back** are in the pool at once, and an event to look at the pool goes
out. -/
theorem free_cases (h : handleResourceFree (Ev.start s m) = .ok e) :
    m.i.tok ≤ s.r.numTokens ∧
    e = ⟨(s.setR (s.r.give m.i.req m.i.tok)).draw 1, ⟨false, false, false⟩, m, [.deq m.i.tok]⟩ := by
  unfold handleResourceFree resourceFree at h
  by_cases htok : m.i.tok ≤ s.r.numTokens
  · simp only [Ev.start, gt_iff_lt, if_neg (Nat.not_lt.2 htok)] at h
    exact ⟨htok, (Except.ok.inj h).symm⟩
  · simp only [Ev.start, gt_iff_lt, if_pos (Nat.not_le.1 htok)] at h
    cases h

/-- **A look at the requests that wait** finds none, or one that does not fit, or serves the first
one and sends an event for the next. -/
theorem deq_cases (h : handleResourceDeq self (Ev.start s m) = .ok e) :
    s.pending m.i.tok = [] ∧ e = ⟨s, ⟨true, false, false⟩, m, []⟩ ∨
    ∃ p rest, s.pending m.i.tok = p :: rest ∧ m.i.tok ≤ s.r.numTokens ∧ p.tok ≤ s.r.numTokens ∧
      (s.r.avail p.tok < p.req ∧
          e = ⟨s, ⟨false, false, false⟩, m.saveMin (s.r.minAvail m.i.tok), []⟩ ∨
        p.req ≤ s.r.avail p.tok ∧ p.req ≤ s.r.max p.tok ∧
          e = ⟨(((s.setR (s.r.take p.req p.tok)).setPending m.i.tok rest).draw 1).draw 1,
            ⟨false, true, false⟩, (m.saveMin (s.r.minAvail m.i.tok)).saveRequest p,
            [.response (p.cb.answer self ⟨0, tokenDummy⟩), .deq m.i.tok]⟩) := by
  unfold handleResourceDeq at h
  cases hp : s.pending m.i.tok with
  | nil =>
    simp only [Ev.start, hp] at h
    exact .inl ⟨rfl, (Except.ok.inj h).symm⟩
  | cons p rest =>
    simp only [Ev.start, hp] at h
    by_cases htok : m.i.tok ≤ s.r.numTokens
    case neg =>
      have hmin : resourceGetMinAvail m.i.tok s.r = none := if_pos (Nat.not_le.1 htok)
      rw [hmin] at h
      cases h
    have hmin : resourceGetMinAvail m.i.tok s.r = some (s.r.minAvail m.i.tok) :=
      if_neg (Nat.not_lt.2 htok)
    simp only [hmin] at h
    by_cases hptok : p.tok ≤ s.r.numTokens
    case neg =>
      have hget : resourceGet p.req p.tok s.r = (2, s.r) := if_pos (Nat.not_le.1 hptok)
      simp only [hget] at h
      cases h
    refine .inr ⟨p, rest, rfl, htok, hptok, ?_⟩
    obtain ⟨hlt, hget⟩ | ⟨-, -, hget⟩ | ⟨havail, hmax, hget⟩ := resourceGet_cases p.req hptok
    · simp only [hget] at h
      exact .inl ⟨hlt, (Except.ok.inj h).symm⟩
    · simp only [hget] at h
      cases h
    · simp only [hget, if_true] at h
      rw [if_neg (by decide)] at h
      obtain ⟨u, hr, rfl⟩ := map_eq_ok h
      cases resourceResponse_ok hr
      exact .inr ⟨havail, hmax, rfl⟩

/-- **A reservation** takes its units out of the general pool. -/
theorem reserve_cases (h : handleResourceReserve self (Ev.start s m) = .ok e) :
    s.r.numTokens < maxReserve ∧ m.i.req ≤ s.r.avail 0 ∧
    e = ⟨(s.setR (s.r.addPool m.i.req)).draw 1, ⟨false, false, false⟩, m,
      [.response (m.i.cb.answer self ⟨0, s.r.numTokens + 1⟩)]⟩ := by
  unfold handleResourceReserve resourceReserve at h
  simp only [Ev.start] at h
  by_cases hfull : s.r.numTokens > maxReserve
  · simp only [hfull, if_true] at h
    cases h
  by_cases havail : m.i.req > s.r.avail 0
  · simp only [hfull, havail, if_true, if_false] at h
    cases h
  by_cases hlast : s.r.numTokens + 1 > maxReserve
  · simp only [hfull, havail, hlast, if_true, if_false] at h
    cases h
  simp only [hfull, havail, hlast, if_false] at h
  exact ⟨by omega, UInt64.not_lt.1 havail, resourceResponse_ok h⟩

end Cases

/-! ### Runs -/

/-- What happens to a pool. -/
inductive Entry where
  /-- It came, and waits. -/
  | queued (p : Request)
  /-- It waited, and is served. -/
  | served (p : Request)
  /-- It is served as it comes. -/
  | direct (p : Request)
  /-- Units that were given back. -/
  | freed (p : Request)

/-- What an event has done, read off from what was answered: a request that is not answered waits,
and `iRc` is the one that had waited. -/
def entries (m : Msg) (e : Ev) : List Entry :=
  match m.eventType, e.outs with
  | .get, [] => [.queued m.i]
  | .get, .response a :: _ => if a.ret.ret = 0 then [.direct m.i] else []
  | .deq, .response _ :: _ => [.served e.m.iRc]
  | .free, _ => [.freed m.i]
  | _, _ => []

/-- The requests that had to wait, as they came. -/
def queuedOf (l : List Entry) : List Request :=
  l.filterMap fun
    | .queued p => some p
    | _ => none

/-- The requests that had waited, as they were served. -/
def servedOf (l : List Entry) : List Request :=
  l.filterMap fun
    | .served p => some p
    | _ => none

/-- The pool to look at, of an event the LP sends to itself. -/
def Out.deqTok? : Out → Option ℕ
  | .response _ => none
  | .deq tok => some tok

/-- The LP, the `RESOURCE_DEQ` events on their way to it, and what happened to each pool. -/
structure Sys where
  s : State
  flying : List ℕ
  log : ℕ → List Entry

/-- What can happen next: an event of a caller, or one of the events on their way. -/
inductive Label where
  | event (m : Msg)
  | deq (k : ℕ) (m : Msg)

def Label.msg : Label → Msg
  | .event m => m
  | .deq _ m => m

def Sys.init (avail : UInt64) : Sys := ⟨State.init avail, [], fun _ => []⟩

/-- After an event, with the others that are on their way. -/
def Sys.after (x : Sys) (flying : List ℕ) (m : Msg) (e : Ev) : Sys where
  s := e.s
  flying := flying ++ e.outs.filterMap Out.deqTok?
  log := update x.log m.i.tok (x.log m.i.tok ++ entries m e)

/-- An event arrives, while others are on their way. -/
def Sys.deliver (self : Lpid) (x : Sys) (flying : List ℕ) (m : Msg) : Option Sys :=
  match resourceEventHandler self x.s m with
  | .error _ => none
  | .ok e => some (x.after flying m e)

/-- One step.  Of an event that the LP sent to itself only the pool counts. -/
def Sys.step (self : Lpid) (x : Sys) : Label → Option Sys
  | .event m => if m.eventType = .deq then none else x.deliver self x.flying m
  | .deq k m =>
    if m.eventType = .deq ∧ x.flying[k]? = some m.i.tok then
      x.deliver self (x.flying.eraseIdx k) m
    else none

/-- A resource LP with address `self`. -/
def machine (self : Lpid) : Machine Sys Label := ⟨Sys.step self⟩

/-- **The invariant** of a pool `t`, when there are `num`: the requests that wait for it, the units
it has, whether an event to look at it is on its way, and what happened to it. -/
structure Pool (num t : ℕ) (pending : List Request) (avail : UInt64) (woken : Prop)
    (log : List Entry) : Prop where
  tok : ∀ p ∈ pending, p.tok = t
  beyond : num < t → pending = []
  wake : ∀ p rest, pending = p :: rest → p.req ≤ avail → woken
  order : queuedOf log = servedOf log ++ pending
  direct : ∀ pre p post, log = pre ++ .direct p :: post → queuedOf pre = servedOf pre

/-- The invariant of the whole. -/
def Sys.Inv (x : Sys) : Prop :=
  ∀ t, Pool x.s.r.numTokens t (x.s.pending t) (x.s.r.avail t) (t ∈ x.flying) (x.log t)

namespace Pool

variable {num num' t : ℕ} {pending rest : List Request} {avail avail' : UInt64}
    {woken woken' : Prop}
  {log : List Entry} {p : Request}

theorem init : Pool num t [] avail woken [] where
  tok _ h := by simp at h
  beyond _ := rfl
  wake _ _ h := by simp at h
  order := rfl
  direct _ _ _ h := by simp at h

/-- Fewer units, more pools and more events do no harm. -/
theorem mono (h : Pool num t pending avail woken log) (hnum : num ≤ num') (havail : avail' ≤ avail)
    (hwoken : woken → woken') : Pool num' t pending avail' woken' log where
  tok := h.tok
  beyond hlt := h.beyond (by omega)
  wake p rest hp hfits := hwoken (h.wake p rest hp (UInt64.le_trans hfits havail))
  order := h.order
  direct := h.direct

theorem of_nil (h : Pool num t [] avail woken log) (avail' : UInt64) :
    Pool num' t [] avail' woken' log :=
  { h with
    beyond := fun _ => rfl
    wake := nofun }

/-- If the first request does not fit, nobody has to look. -/
theorem of_blocked (h : Pool num t (p :: rest) avail woken log) (hlt : avail < p.req) :
    Pool num t (p :: rest) avail woken' log :=
  { h with
    wake := by
      rintro q rest' ⟨rfl, rfl⟩ hfits
      exact absurd (UInt64.lt_of_lt_of_le hlt hfits) (UInt64.lt_irrefl _) }

theorem direct_append {y : Entry} (h : ∀ pre p post, log = pre ++ .direct p :: post →
      queuedOf pre = servedOf pre) (hy : ∀ p, y = .direct p → queuedOf log = servedOf log) :
    ∀ pre p post, log ++ [y] = pre ++ .direct p :: post → queuedOf pre = servedOf pre := by
  intro pre p post heq
  obtain rfl | ⟨post', z, rfl⟩ := List.eq_nil_or_concat' post
  · obtain ⟨rfl, hz⟩ := List.append_inj' heq rfl
    exact hy p (by simpa using hz)
  · rw [← List.cons_append, ← List.append_assoc] at heq
    exact h pre p post' (List.append_inj' heq rfl).1

/-- A request joins those that wait, or is the first one and does not fit. -/
theorem queue (h : Pool num t pending avail woken log) (hp : p.tok = t) (ht : t ≤ num)
    (hwait : pending ≠ [] ∨ avail < p.req) :
    Pool num t (pending ++ [p]) avail woken (log ++ [.queued p]) where
  tok q hq := by
    obtain hq | rfl := by simpa using hq
    · exact h.tok q hq
    · exact hp
  beyond hlt := absurd hlt (Nat.not_lt.2 ht)
  wake q rest hq hfits := by
    cases pending with
    | nil =>
      obtain ⟨rfl, -⟩ := List.cons.inj hq
      have hlt := hwait.resolve_left (not_not.2 rfl)
      exact absurd (UInt64.lt_of_lt_of_le hlt hfits) (UInt64.lt_irrefl _)
    | cons p' rest' =>
      obtain ⟨rfl, -⟩ := List.cons.inj hq
      exact h.wake p' rest' rfl hfits
  order := by simp [queuedOf, servedOf, ← List.append_assoc] at h ⊢; exact h.order
  direct := direct_append h.direct nofun

theorem serveDirect (h : Pool num t [] avail woken log) (avail' : UInt64) :
    Pool num t [] avail' woken (log ++ [.direct p]) where
  tok := h.tok
  beyond _ := rfl
  wake := nofun
  order := by simpa [queuedOf, servedOf] using h.order
  direct := direct_append h.direct fun _ _ => by simpa using h.order

theorem free (h : Pool num t pending avail woken log) (hwoken : woken') :
    Pool num t pending avail' woken' (log ++ [.freed p]) where
  tok := h.tok
  beyond := h.beyond
  wake _ _ _ _ := hwoken
  order := by simpa [queuedOf, servedOf] using h.order
  direct := direct_append h.direct nofun

theorem serveFirst (h : Pool num t (p :: rest) avail woken log) (hwoken : woken') :
    Pool num t rest avail' woken' (log ++ [.served p]) where
  tok q hq := h.tok q (List.mem_cons_of_mem _ hq)
  beyond hlt := absurd (h.beyond hlt) (List.cons_ne_nil _ _)
  wake _ _ _ _ := hwoken
  order := by simpa [queuedOf, servedOf] using h.order
  direct := direct_append h.direct nofun

end Pool

/-! ### The steps -/

section Steps

variable {self : Lpid} {x : Sys} {m : Msg} {e : Ev} {flying : List ℕ}

theorem Sys.init_inv (avail : UInt64) : (Sys.init avail).Inv := fun _ => Pool.init

/-- What one pool goes through is enough if the others keep what they have. -/
theorem Sys.Inv.after (h : x.Inv) (hnum : e.s.r.numTokens = x.s.r.numTokens)
    (hframe : ∀ t ≠ m.i.tok, e.s.pending t = x.s.pending t ∧ e.s.r.avail t = x.s.r.avail t ∧
      (t ∈ x.flying → t ∈ flying))
    (htok : Pool x.s.r.numTokens m.i.tok (e.s.pending m.i.tok) (e.s.r.avail m.i.tok)
      (m.i.tok ∈ flying ++ e.outs.filterMap Out.deqTok?) (x.log m.i.tok ++ entries m e)) :
    (x.after flying m e).Inv := by
  intro t
  simp only [Sys.after, hnum]
  by_cases ht : t = m.i.tok
  · rw [ht, update_self]
    exact htok
  · obtain ⟨hp, havail, hfly⟩ := hframe t ht
    rw [hp, havail, update_of_ne ht]
    exact (h t).mono (Nat.le_refl _) (UInt64.le_refl _) fun hmem =>
      List.mem_append_left _ (hfly hmem)

theorem Sys.Inv.get (h : x.Inv) (hm : m.eventType = .get)
    (hok : handleResourceGet self (Ev.start x.s m) = .ok e) : (x.after x.flying m e).Inv := by
  obtain ⟨htok, ⟨hwait, -, rfl⟩ | ⟨-, -, rfl⟩ | ⟨hp, -, -, rfl⟩⟩ := get_cases hok
  · refine h.after rfl (fun t ht => ⟨update_of_ne ht _ _, rfl, id⟩) ?_
    have hqueue := (h m.i.tok).queue (p := m.i) rfl htok hwait
    simpa [entries, hm, State.setPending] using hqueue
  · refine h.after rfl (fun t _ => ⟨rfl, rfl, id⟩) ?_
    simpa [entries, hm, State.draw, CbParams.answer, Out.deqTok?] using h m.i.tok
  · refine h.after rfl (fun t ht => ⟨rfl, update_of_ne ht _ _, id⟩) ?_
    have hpool := h m.i.tok
    rw [hp] at hpool
    have hserve := hpool.serveDirect (p := m.i) (x.s.r.avail m.i.tok - m.i.req)
    simpa [entries, hm, State.draw, State.setR, Res.take, CbParams.answer, Out.deqTok?, hp]
      using hserve

theorem Sys.Inv.free (h : x.Inv) (hm : m.eventType = .free)
    (hok : handleResourceFree (Ev.start x.s m) = .ok e) : (x.after x.flying m e).Inv := by
  obtain ⟨htok, rfl⟩ := free_cases hok
  refine h.after rfl (fun t ht => ⟨rfl, update_of_ne ht _ _, id⟩) ?_
  have hpool : Pool x.s.r.numTokens m.i.tok (x.s.pending m.i.tok)
      (x.s.r.avail m.i.tok + m.i.req) True (x.log m.i.tok ++ [.freed m.i]) :=
    (h m.i.tok).free trivial
  simpa [entries, hm, State.draw, State.setR, Res.give, Out.deqTok?] using hpool

theorem Sys.Inv.deq (h : x.Inv) (hm : m.eventType = .deq)
    (hfly : ∀ t ≠ m.i.tok, t ∈ x.flying → t ∈ flying)
    (hok : handleResourceDeq self (Ev.start x.s m) = .ok e) : (x.after flying m e).Inv := by
  have hpool := h m.i.tok
  obtain ⟨hp, rfl⟩ | ⟨p, rest, hp, htok, hptok, ⟨hlt, rfl⟩ | ⟨-, -, rfl⟩⟩ := deq_cases hok
  · rw [hp] at hpool
    refine h.after rfl (fun t ht => ⟨rfl, rfl, hfly t ht⟩) ?_
    simpa [entries, hm, hp] using hpool.of_nil (x.s.r.avail m.i.tok)
  · rw [hp] at hpool
    -- the first one is of this pool, so that it is this pool it does not fit into
    rw [hpool.tok p List.mem_cons_self] at hlt
    refine h.after rfl (fun t ht => ⟨rfl, rfl, hfly t ht⟩) ?_
    simpa [entries, hm, hp] using hpool.of_blocked hlt
  · rw [hp] at hpool
    have hptok : p.tok = m.i.tok := hpool.tok p List.mem_cons_self
    refine h.after rfl (fun t ht => ⟨update_of_ne ht _ _, ?_, hfly t ht⟩) ?_
    · exact update_of_ne (by rwa [hptok]) _ _
    · have hserve : Pool x.s.r.numTokens m.i.tok rest (x.s.r.avail p.tok - p.req) True
          (x.log m.i.tok ++ [.served p]) := hpool.serveFirst trivial
      simpa [entries, hm, State.draw, State.setR, State.setPending, Res.take, Out.deqTok?, hptok]
        using hserve

theorem Sys.after_log (hm : m.eventType = .reserve) : (x.after flying m e).log = x.log := by
  simp [Sys.after, entries, hm]

theorem Sys.Inv.reserve (h : x.Inv) (hm : m.eventType = .reserve)
    (hok : handleResourceReserve self (Ev.start x.s m) = .ok e) :
    (x.after x.flying m e).Inv := by
  obtain ⟨-, havail, rfl⟩ := reserve_cases hok
  intro t
  rw [Sys.after_log hm]
  simp only [Sys.after, State.draw, State.setR, Res.addPool, Out.deqTok?, List.filterMap_cons,
    List.filterMap_nil, List.append_nil]
  rcases Nat.lt_or_ge x.s.r.numTokens t with hlt | hle
  · -- nobody has been able to ask for the new pool
    have hpool := h t
    have hnil := hpool.beyond hlt
    rw [hnil] at hpool ⊢
    exact hpool.of_nil _
  · refine (h t).mono (Nat.le_succ _) ?_ id
    by_cases h0 : t = 0
    · rw [h0, update_self]
      exact UInt64.sub_le havail
    · rw [update_of_ne h0, update_of_ne (by omega)]
      exact UInt64.le_refl _

theorem Sys.step_cases {l : Label} {x' : Sys} (h : x.step self l = some x') :
    ∃ flying e, x' = x.after flying l.msg e ∧ resourceEventHandler self x.s l.msg = .ok e ∧
      (l.msg.eventType ≠ .deq → flying = x.flying) ∧
      (∀ t ≠ l.msg.i.tok, t ∈ x.flying → t ∈ flying) ∧ ∀ t ∈ flying, t ∈ x.flying := by
  have deliver {flying : List ℕ} (h : x.deliver self flying l.msg = some x') :
      ∃ e, x' = x.after flying l.msg e ∧ resourceEventHandler self x.s l.msg = .ok e := by
    unfold Sys.deliver at h
    split at h
    · cases h
    · exact ⟨_, (Option.some.inj h).symm, ‹_›⟩
  unfold Sys.step at h
  cases l with
  | event m =>
    simp only at h
    split_ifs at h with hm
    obtain ⟨e, rfl, hok⟩ := deliver h
    exact ⟨x.flying, e, rfl, hok, fun _ => rfl, fun _ _ => id, fun _ => id⟩
  | deq k m =>
    simp only at h
    split_ifs at h with hm
    obtain ⟨heq, hk⟩ := hm
    obtain ⟨e, rfl, hok⟩ := deliver h
    refine ⟨_, e, rfl, hok, fun hne => absurd heq hne, fun t ht hmem => ?_,
      fun t => List.mem_of_mem_eraseIdx⟩
    obtain ⟨j, hj⟩ := List.mem_iff_getElem?.1 hmem
    refine List.mem_eraseIdx_iff_getElem?.2 ⟨j, ?_, hj⟩
    rintro rfl
    exact ht (Option.some.inj (hj.symm.trans hk))

theorem Sys.Inv.step (h : x.Inv) {l : Label} {x' : Sys} (hstep : x.step self l = some x') :
    x'.Inv := by
  obtain ⟨flying, e, rfl, hok, hfly, hmem, -⟩ := Sys.step_cases hstep
  unfold resourceEventHandler at hok
  cases hm : l.msg.eventType with
  | deq => exact h.deq hm hmem (by simpa only [hm] using hok)
  | get =>
    rw [hfly (by simp [hm])]
    exact h.get hm (by simpa only [hm] using hok)
  | free =>
    rw [hfly (by simp [hm])]
    exact h.free hm (by simpa only [hm] using hok)
  | reserve =>
    rw [hfly (by simp [hm])]
    exact h.reserve hm (by simpa only [hm] using hok)

/-- **Nobody is forgotten, and nobody is overtaken.**  In every state of every run: if the first
request that waits for a pool fits, an event to look at the pool is on its way; the requests that
had to wait are served in the order in which they came, those that are not served yet being the last
ones; and when a request is served as it comes, all that had waited until then have been served. -/
theorem wakeUps_and_order (self : Lpid) (avail : UInt64) (ls : List Label) (x : Sys)
    (h : (machine self).run (Sys.init avail) ls = some x) (t : ℕ) :
    (∀ p rest, x.s.pending t = p :: rest → p.req ≤ x.s.r.avail t → t ∈ x.flying) ∧
    queuedOf (x.log t) = servedOf (x.log t) ++ x.s.pending t ∧
    ∀ pre p post, x.log t = pre ++ .direct p :: post → queuedOf pre = servedOf pre := by
  have hinv : x.Inv := Machine.run_invariant (P := fun _ => True)
    (fun _ _ _ hx _ hstep => hx.step hstep) (Sys.init_inv avail) (fun _ _ => trivial) h
  exact ⟨(hinv t).wake, (hinv t).order, (hinv t).direct⟩

end Steps

/-- A caller that wants an answer in an event of 64 bytes. -/
def callerCb : CbParams := ⟨⟨64, 0, 16, 20⟩, ⟨3, 0, 0⟩, 0⟩

/-- An event of this caller. -/
def callerMsg (eventType : EventType) (req : UInt64) (tok : ℕ) (block : Bool) : Msg :=
  ⟨eventType, ⟨req, tok, block, callerCb⟩, ⟨0, 0, false, callerCb⟩, 0⟩

/-- Of 10 units 6 are taken, 6 more are asked for, and the first 6 are given back. -/
def oneWaits : List Label :=
  [.event (callerMsg .get 6 0 false), .event (callerMsg .get 6 0 true),
    .event (callerMsg .free 6 0 false)]

theorem wakeUps_and_order_oneWaits : ∃ x, (machine 7).run (Sys.init 10) oneWaits = some x ∧
    x.s.pending 0 = [⟨6, 0, true, callerCb⟩] ∧ x.s.r.avail 0 = 10 ∧ 0 ∈ x.flying := by
  refine ⟨_, rfl, rfl, rfl, ?_⟩
  exact (wakeUps_and_order 7 10 oneWaits _ rfl 0).1 _ _ rfl (by decide)

end CodesSim.Resource
