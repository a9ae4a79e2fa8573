import CodesSim.Util.Callback

/-!
# The resource LP

A resource (`resource.c`) is an amount of units of which some can be had and are given back later.
Parts of it can be reserved: pool 0 is the general pool, and each reservation has a pool of its own,
which is named by its token.  The resource LP (`resource-lp.c`) serves requests by events: a request
that cannot be met is refused or waits, and whenever units are given back the LP sends itself an
event to look at the first one that waits (`RESOURCE_DEQ`).

* A failed assertion, an error and a write outside of the arrays have no result (`Fault`).  The
  calls inside `assert` are made.
* The latencies are drawn from a generator of the LP, of which only the number of draws is kept.
-/

namespace CodesSim.Resource

open Function

/-- Why there is no result. -/
inductive Fault where
  | assertion
  | twError
  | outOfBounds

/-! ### The resource -/

/-- `MAX_RESERVE`. -/
def maxReserve : ℕ := 8

/-- `resource`.  The arrays have places up to `maxReserve`. -/
structure Res where
  avail : ℕ → UInt64
  max : ℕ → UInt64
  /-- The least that was available at any time. -/
  minAvail : ℕ → UInt64
  maxAll : UInt64
  numTokens : ℕ

/-- `resource_init`. -/
def resourceInit (avail : UInt64) : Res where
  avail i := if i = 0 then avail else 0
  max i := if i = 0 then avail else 0
  minAvail i := if i = 0 then avail else 0
  maxAll := avail
  numTokens := 0

/-- `resource_get`. -/
def resourceGet (req : UInt64) (tok : ℕ) (r : Res) : ℤ × Res :=
  if tok > r.numTokens then (2, r)
  else if req > r.avail tok then (1, r)
  else if req > r.max tok then (-1, r)
  else
    let left := r.avail tok - req
    (0, { r with
      avail := update r.avail tok left
      minAvail := update r.minAvail tok (min left (r.minAvail tok)) })

/-- `resource_free`. -/
def resourceFree (req : UInt64) (tok : ℕ) (r : Res) : ℤ × Res :=
  if tok > r.numTokens then (2, r)
  else (0, { r with avail := update r.avail tok (r.avail tok + req) })

/-- `resource_get_min_avail`. -/
def resourceGetMinAvail (tok : ℕ) (r : Res) : Option UInt64 :=
  if tok > r.numTokens then none else some (r.minAvail tok)

/-- `resource_restore_min_avail`. -/
def resourceRestoreMinAvail (tok : ℕ) (minAvail : UInt64) (r : Res) : Option Res :=
  if tok > r.numTokens then none
  else some { r with minAvail := update r.minAvail tok minAvail }

/-- A new pool takes units from the general one. -/
def Res.addPool (r : Res) (req : UInt64) : Res where
  avail := update (update r.avail (r.numTokens + 1) req) 0 (r.avail 0 - req)
  max := update (update r.max (r.numTokens + 1) req) 0 (r.max 0 - req)
  minAvail := update r.minAvail (r.numTokens + 1) req
  maxAll := r.maxAll
  numTokens := r.numTokens + 1

/-- `resource_reserve`, with what becomes of the token of the caller.  The test lets one reservation
more pass than the arrays have places. -/
def resourceReserve (req : UInt64) (tok : ℕ) (r : Res) : Except Fault (ℤ × ℕ × Res) :=
  if r.numTokens > maxReserve then .ok (2, tok, r)
  else if req > r.avail 0 then .ok (1, tok, r)
  else if r.numTokens + 1 > maxReserve then .error .outOfBounds
  else .ok (0, r.numTokens + 1, r.addPool req)

/-! ### Events -/

/-- `resource_event`. -/
inductive EventType where
  | get
  | free
  | deq
  | reserve
  deriving DecidableEq

/-- A request (`resource_msg_internal`). -/
structure Request where
  req : UInt64
  tok : ℕ
  blockOnUnavail : Bool
  cb : CbParams

/-- An event (`resource_msg`). -/
structure Msg where
  eventType : EventType
  i : Request
  /-- The request that was served, for the reverse. -/
  iRc : Request
  minAvailRc : UInt64

/-- The bits of `tw_bf` the handlers use. -/
structure Bf where
  (c0 c1 c2 : Bool)

/-- The state (`resource_state`), with the draws of `codes_local_latency`. -/
structure State where
  r : Res
  pending : ℕ → List Request
  draws : ℤ

/-- What is returned to a caller (`resource_return`). -/
structure Return where
  ret : ℤ
  tok : ℕ

/-- What the LP sends. -/
inductive Out where
  | response (a : Answer Return)
  /-- `RESOURCE_DEQ` to itself. -/
  | deq (tok : ℕ)

/-- A handler at work. -/
structure Ev where
  s : State
  b : Bf
  m : Msg
  outs : List Out

/-- `TOKEN_DUMMY`. -/
def tokenDummy : ℕ := 2 ^ 32 - 1

/-- `resource_lp_ind_init`. -/
def State.init (avail : UInt64) : State := ⟨resourceInit avail, fun _ => [], 0⟩

def State.setR (s : State) (r : Res) : State := { s with r := r }

def State.setPending (s : State) (tok : ℕ) (l : List Request) : State :=
  { s with pending := update s.pending tok l }

/-- Draws that are made or taken back. -/
def State.draw (s : State) (n : ℤ) : State := { s with draws := s.draws + n }

/-- Fields of the event that a handler sets. -/
def Msg.saveMin (m : Msg) (minAvail : UInt64) : Msg := { m with minAvailRc := minAvail }

def Msg.saveRequest (m : Msg) (i : Request) : Msg := { m with iRc := i }

@[simp] theorem Msg.saveMin_i (m : Msg) (minAvail : UInt64) : (m.saveMin minAvail).i = m.i := rfl

@[simp] theorem Msg.saveRequest_iRc (m : Msg) (i : Request) : (m.saveRequest i).iRc = i := rfl

/-- `resource_response`. -/
def resourceResponse (self : Lpid) (cb : CbParams) (ret : ℤ) (tok : ℕ) (e : Ev) : Except Fault Ev :=
  if cb.info.Sane 8 then
    .ok { e with
      s := e.s.draw 1
      outs := e.outs ++ [.response (cb.answer self ⟨ret, tok⟩)] }
  else .error .assertion

/-- A request for which there was no room, or which got what it wants (`ret = 0`). -/
def answerGet (self : Lpid) (ret : ℤ) (e : Ev) : Except Fault Ev :=
  (resourceResponse self e.m.i.cb ret tokenDummy e).map fun e =>
    { e with b := { e.b with
      c1 := true
      c2 := ret = 0 } }

/-- What becomes of a request, from what `resource_get` returned (1 when it was not called because
others wait). -/
def settleGet (self : Lpid) (ret : ℤ) (r : Res) (e : Ev) : Except Fault Ev :=
  if ret = 2 ∨ ret = -1 then .error .twError
  else if ret ≠ 0 ∧ e.m.i.blockOnUnavail then
    -- the operation is put off
    .ok { e with
      s := e.s.setPending e.m.i.tok (e.s.pending e.m.i.tok ++ [e.m.i])
      b := { e.b with
        c0 := true
        c2 := false } }
  else answerGet self ret { e with s := e.s.setR r }

/-- `handle_resource_get`. -/
def handleResourceGet (self : Lpid) (e : Ev) : Except Fault Ev :=
  match resourceGetMinAvail e.m.i.tok e.s.r with
  | none => .error .assertion
  | some minAvail =>
    let got := if e.s.pending e.m.i.tok ≠ [] then (1, e.s.r) else resourceGet e.m.i.req
      e.m.i.tok e.s.r
    settleGet self got.1 got.2 { e with m := e.m.saveMin minAvail }

/-- `handle_resource_free`. -/
def handleResourceFree (e : Ev) : Except Fault Ev :=
  let freed := resourceFree e.m.i.req e.m.i.tok e.s.r
  if freed.1 ≠ 0 then .error .assertion
  else .ok { e with
    s := (e.s.setR freed.2).draw 1
    outs := e.outs ++ [.deq e.m.i.tok] }

/-- `handle_resource_deq`. -/
def handleResourceDeq (self : Lpid) (e : Ev) : Except Fault Ev :=
  match e.s.pending e.m.i.tok with
  | [] => .ok { e with b := { e.b with c0 := true } }
  | p :: rest =>
    match resourceGetMinAvail e.m.i.tok e.s.r with
    | none => .error .assertion
    | some minAvail =>
      let e := { e with m := e.m.saveMin minAvail }
      let got := resourceGet p.req p.tok e.s.r
      if got.1 = 2 ∨ got.1 = -1 then .error .assertion
      else if got.1 = 0 then
        (resourceResponse self p.cb got.1 tokenDummy { e with
          s := (e.s.setR got.2).setPending e.m.i.tok rest
          b := { e.b with c1 := true }
          m := e.m.saveRequest p }).map fun e =>
        -- the next one is looked at in an event of its own
        { e with
          s := e.s.draw 1
          outs := e.outs ++ [.deq e.m.i.tok] }
      else .ok e

/-- `handle_resource_reserve`. -/
def handleResourceReserve (self : Lpid) (e : Ev) : Except Fault Ev :=
  match resourceReserve e.m.i.req 0 e.s.r with
  | .error f => .error f
  | .ok (ret, tok, r) =>
    if ret ≠ 0 then .error .assertion
    else resourceResponse self e.m.i.cb ret tok { e with s := e.s.setR r }

/-- An event that begins, with the bits cleared. -/
def Ev.start (s : State) (m : Msg) : Ev := ⟨s, ⟨false, false, false⟩, m, []⟩

/-- `resource_event_handler`. -/
def resourceEventHandler (self : Lpid) (s : State) (m : Msg) : Except Fault Ev :=
  match m.eventType with
  | .get => handleResourceGet self (Ev.start s m)
  | .free => handleResourceFree (Ev.start s m)
  | .deq => handleResourceDeq self (Ev.start s m)
  | .reserve => handleResourceReserve self (Ev.start s m)

/-! ### Reverse handlers -/

/-- A minimum gets back its value, and a pool the units that were taken. -/
def unget (minTok : ℕ) (minAvail : UInt64) (req : UInt64) (tok : ℕ) (s : State) :
    Except Fault State :=
  match resourceRestoreMinAvail minTok minAvail s.r with
  | none => .error .assertion
  | some r =>
    let freed := resourceFree req tok r
    if freed.1 ≠ 0 then .error .assertion else .ok (s.setR freed.2)

/-- `handle_resource_get_rc`. -/
def handleResourceGetRc (s : State) (b : Bf) (m : Msg) : Except Fault State :=
  if b.c0 ∧ s.pending m.i.tok = [] then .error .assertion
  else
    let s :=
      if b.c0 then s.setPending m.i.tok (s.pending m.i.tok).dropLast
      else if b.c1 then s.draw (-1)
      else s
    if b.c2 then unget m.i.tok m.minAvailRc m.i.req m.i.tok s else .ok s

/-- `handle_resource_free_rc`. -/
def handleResourceFreeRc (s : State) (m : Msg) : Except Fault State :=
  let got := resourceGet m.i.req m.i.tok s.r
  if got.1 ≠ 0 then .error .assertion else .ok ((s.setR got.2).draw (-1))

/-- `handle_resource_deq_rc`. -/
def handleResourceDeqRc (s : State) (b : Bf) (m : Msg) : Except Fault State :=
  if b.c0 then .ok s
  else if b.c1 then
    (unget m.i.tok m.minAvailRc m.iRc.req m.iRc.tok
      ((s.setPending m.i.tok (m.iRc :: s.pending m.i.tok)).draw (-1))).bind fun s =>
        -- the event for the next one
        .ok (s.draw (-1))
  else .ok s

/-- `handle_resource_reserve_rc`. -/
def handleResourceReserveRc (s : State) (m : Msg) : State :=
  (s.setR { s.r with
    numTokens := s.r.numTokens - 1
    max := update s.r.max 0 (s.r.max 0 + m.i.req)
    avail := update s.r.avail 0 (s.r.avail 0 + m.i.req) }).draw (-1)

/-- `resource_rev_handler`. -/
def resourceRevHandler (s : State) (b : Bf) (m : Msg) : Except Fault State :=
  match m.eventType with
  | .get => handleResourceGetRc s b m
  | .free => handleResourceFreeRc s m
  | .deq => handleResourceDeqRc s b m
  | .reserve => .ok (handleResourceReserveRc s m)

end CodesSim.Resource
