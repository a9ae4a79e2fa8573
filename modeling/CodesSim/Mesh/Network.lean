import CodesSim.Lib.Network
import CodesSim.Mesh.Steps

/-!
# The network of an express mesh

The terminals and routers of an express mesh and the events in flight (`system`).  Packets come from
outside as `T_GENERATE` events.

In every reachable state (`inv_of_run`) the lists of the routers are in order, and the loop flag of
a terminal or of a port is the number of its send events in flight, and at most one.
-/

namespace CodesSim.Mesh

open LpSystem (flightSum flightSum_nil flightSum_cons flightSum_append)

/-! ### The system -/

/-- The state of an LP. -/
def LpState : LpName → Type
  | .terminal _ => Terminal
  | .router _ => Router

/-- The event that an output of an LP is for this network, if it is one. -/
def flight : Out → Option (LpName × Msg)
  | .event dest _ msg => some (dest, msg)
  | .idle .. | .server .. | .pull .. => none

@[simp] theorem flight_event (d : LpName) (ts : STime) (msg : Msg) :
    flight (.event d ts msg) = some (d, msg) := rfl

@[simp] theorem flight_idle (ts : STime) : flight (.idle ts) = none := rfl

@[simp] theorem flight_server (d : Lpid) (ts : STime) (data : List UInt8) :
    flight (.server d ts data) = none := rfl

/-- The event handler of an LP. -/
def handle (p : Param) (env : Env) :
    ∀ i, LpState i → Msg → Option (LpState i × List (LpName × Msg))
  | .terminal n, (s : Terminal), msg =>
    (terminalEvent p env n s msg).map fun r => (r.state, r.outs.filterMap flight)
  | .router n, (s : Router), msg =>
    (routerEvent p env n s msg).map fun r => (r.state, r.outs.filterMap flight)

/-- The LPs of an express mesh. -/
def system (p : Param) : LpSystem LpState Msg Env := ⟨handle p⟩

/-- An LP before the first event. -/
def initLp : ∀ i, LpState i
  | .terminal _ => Terminal.init
  | .router _ => Router.init

/-- The network before the first event. -/
def init : Net LpState Msg := ⟨initLp, []⟩

/-- From outside come packets for terminals. -/
def FromOutside : NetLabel LpName Msg Env → Prop
  | .inject (.terminal _) msg _ => msg.type = .tGenerate
  | .inject (.router _) _ _ => False
  | .deliver _ _ => True

/-! ### Loops -/

/-- A message keeps the send loop of a terminal or of port `v` of a router going. -/
def Msg.IsSend (msg : Msg) (v : ℕ) : Prop :=
  (msg.type = .tSend ∧ v = 0) ∨ (msg.type = .rSend ∧ msg.vcIndex = v)

instance (msg : Msg) (v : ℕ) : Decidable (msg.IsSend v) := inferInstanceAs (Decidable (_ ∨ _))

/-- The send events for loop `v` of LP `i`. -/
def sendAt (v : ℕ) (i d : LpName) (msg : Msg) : ℕ := if d = i ∧ msg.IsSend v then 1 else 0

/-- The loop flags of an LP. -/
def loopFlag (v : ℕ) : ∀ i, LpState i → ℕ
  | .terminal _, (s : Terminal) => if v = 0 then s.inSendLoop else 0
  | .router _, (s : Router) => s.inSendLoop v

/-- An LP is as it should be by itself. -/
def LpOk (p : Param) : ∀ i, LpState i → Prop
  | .terminal _, (s : Terminal) => s.issueIdle ≤ 1 ∧ s.inSendLoop ≤ 1
  | .router _, (s : Router) => (∃ L, s.Ok p L) ∧ ∀ v, s.inSendLoop v ≤ 1

/-- The invariant of the network. -/
structure Inv (p : Param) (net : Net LpState Msg) : Prop where
  lps : ∀ i, LpOk p i (net.nodes i)
  loops : ∀ v i, loopFlag v i (net.nodes i) = flightSum (sendAt v i) net.inFlight

/-- What an event does to the loops of its LP. -/
structure Effect (p : Param) (i : LpName) (s s' : LpState i) (msg : Msg)
    (outs : List (LpName × Msg)) : Prop where
  lp : LpOk p i s'
  sends : ∀ x ∈ outs, x.1 = i ∨ ∀ v, ¬ x.2.IsSend v
  loops : ∀ v, loopFlag v i s' + sendAt v i i msg = loopFlag v i s + flightSum (sendAt v i) outs

/-- What an LP finds when it handles an event: its flags count the event. -/
structure Ready (p : Param) (i : LpName) (s : LpState i) (msg : Msg) : Prop where
  lp : LpOk p i s
  loop : ∀ v, sendAt v i i msg ≤ loopFlag v i s

variable {p : Param} {env : Env} {n : ℕ} {msg : Msg}

@[simp] theorem sendAt_of_ne {v : ℕ} {i d : LpName} (h : d ≠ i) (msg : Msg) :
    sendAt v i d msg = 0 := by simp [sendAt, h]

@[simp] theorem sendAt_self (v : ℕ) (i : LpName) (msg : Msg) :
    sendAt v i i msg = if msg.IsSend v then 1 else 0 := by simp [sendAt]

theorem sendAt_of_not {v : ℕ} {i d : LpName} (h : ¬ msg.IsSend v) :
    sendAt v i d msg = 0 := by simp [sendAt, h]

variable {net : Net LpState Msg}

theorem Inv.ready (hinv : Inv p net) {d : LpName}
    (he : (d, msg) ∈ net.inFlight) : Ready p d (net.nodes d) msg := by
  refine ⟨hinv.lps d, fun v => ?_⟩
  rw [hinv.loops]
  exact LpSystem.le_flightSum (sendAt v d) he

/-- **One step.**  If every handler has the effect that its LP is ready for, the invariant is
preserved. -/
theorem Inv.step {net' : Net LpState Msg} {l : NetLabel LpName Msg Env} (hinv : Inv p net)
    (hl : FromOutside l)
    (heffect : ∀ env i s msg s' outs, Ready p i s msg → handle p env i s msg = some (s', outs) →
      Effect p i s s' msg outs)
    (h : (system p).machine.step net l = some net') : Inv p net' := by
  obtain ⟨env, d, msg, s', outs, rest, hh, hcases⟩ := LpSystem.step_cases h
  -- an event from outside keeps no loop going
  have hweight : ∀ v i, LpSystem.weight (sendAt v i) l = 0 := by
    intro v i
    cases l with
    | deliver => rfl
    | inject d msg env =>
      cases d with
      | router => exact hl.elim
      | terminal n =>
        have htype : msg.type = .tGenerate := hl
        exact sendAt_of_not (by simp [Msg.IsSend, htype])
  have hrest : ∀ v i, flightSum (sendAt v i) net.inFlight =
      sendAt v i d msg + flightSum (sendAt v i) rest := by
    intro v i
    have := LpSystem.flightSum_step (sendAt v i) hcases
    rwa [hweight, add_zero] at this
  have hready : Ready p d (net.nodes d) msg := by
    refine ⟨hinv.lps d, fun v => ?_⟩
    rw [hinv.loops, hrest]
    exact Nat.le_add_right _ _
  have heff := heffect env d _ msg s' outs hready hh.handle
  refine ⟨fun i => ?_, fun v => hh.flags (hrest v) (heff.loops v) (fun i hi => ⟨?_, ?_⟩)
    (hinv.loops v)⟩
  · by_cases hi : i = d
    · subst hi
      rw [hh.node_self]
      exact heff.lp
    · rw [hh.node_of_ne hi]
      exact hinv.lps i
  · exact sendAt_of_ne (Ne.symm hi) msg
  · refine List.sum_eq_zero fun y hy => ?_
    obtain ⟨x, hx, rfl⟩ := List.mem_map.1 hy
    rcases heff.sends x hx with hd | hnot
    · exact sendAt_of_ne (fun hxi => hi (hxi.symm.trans hd)) _
    · exact sendAt_of_not (hnot v)

/-! ### The terminal -/

/-- What a handler of a terminal finds. -/
structure TermReady (s : Terminal) (msg : Msg) : Prop where
  idle_le : s.issueIdle ≤ 1
  loop_le : s.inSendLoop ≤ 1
  send : msg.type = .tSend → s.inSendLoop = 1

theorem Ready.term {s : LpState (.terminal n)} (h : Ready p (.terminal n) s msg) :
    TermReady s msg := by
  obtain ⟨hidle, hle⟩ : Terminal.issueIdle s ≤ 1 ∧ Terminal.inSendLoop s ≤ 1 := h.lp
  refine ⟨hidle, hle, fun htype => ?_⟩
  have h1 := h.loop 0
  rw [sendAt_self, if_pos (.inl ⟨htype, rfl⟩)] at h1
  exact le_antisymm hle h1
variable {r : Result Terminal}


section

variable {s : Terminal}

/-- What a handler of terminal `n` does to its loop. -/
structure TermEffect (n : ℕ) (s s' : Terminal) (msg : Msg) (outs : List Out) : Prop where
  idle_le : s'.issueIdle ≤ 1
  loop_le : s'.inSendLoop ≤ 1
  sends : ∀ x ∈ outs.filterMap flight,
    (x.1 = .terminal n ∧ x.2.type = .tSend) ∨ ∀ v, ¬ x.2.IsSend v
  loops : s'.inSendLoop + (if msg.type = .tSend then 1 else 0) =
    s.inSendLoop + flightSum (sendAt 0 (.terminal n)) (outs.filterMap flight)

section

variable (hready : TermReady s msg)
include hready

theorem packetGenerate_effect
    (htype : msg.type = .tGenerate) (h : packetGenerate p env n s msg = some r) :
    TermEffect n s r.state msg r.outs := by
  simp only [packetGenerate, Option.ite_none_left_eq_some, Option.map_eq_some_iff] at h
  obtain ⟨-, stats, -, rfl⟩ := h
  have hidle := hready.idle_le
  have hloop := hready.loop_le
  by_cases hroom : HasRoom p s msg <;> by_cases hstart : s.inSendLoop = 0 <;>
    constructor <;>
    simp [hroom, hstart, htype, tSendEvent, Msg.IsSend, hidle, hloop, List.filterMap_cons]

theorem stopSending_effect (htype : msg.type = .tSend) :
    TermEffect n s (stopSending env s msg).state msg (stopSending env s msg).outs where
  idle_le := hready.idle_le
  loop_le := Nat.zero_le 1
  sends := by simp [stopSending]
  loops := by simp [stopSending, htype, hready.send htype]

theorem sendChunk_effect (htype : msg.type = .tSend) (router : ℕ)
    (c : Msg) (vc : ℕ) (rest : List Msg) :
    TermEffect n s (sendChunk p env n router s msg c vc rest).state msg
      (sendChunk p env n router s msg c vc rest).outs := by
  have hloop := hready.loop_le
  by_cases hi : s.issueIdle = 0 <;> by_cases hlocal : c.HasLocal p <;>
    constructor <;>
    simp [sendChunk, hi, hlocal, htype, tSendEvent, Msg.IsSend, hloop, List.filterMap_cons]

theorem packetSend_effect (htype : msg.type = .tSend) :
    TermEffect n s (packetSend p env n s msg).state msg (packetSend p env n s msg).outs := by
  simp only [packetSend]
  split
  · exact stopSending_effect hready htype
  · split
    · exact stopSending_effect hready htype
    · exact sendChunk_effect hready htype _ _ _ _

theorem terminalBufUpdate_effect (htype : msg.type = .tBuffer) :
    TermEffect n s (terminalBufUpdate p env n s msg).state msg
      (terminalBufUpdate p env n s msg).outs := by
  have hidle := hready.idle_le
  have hloop := hready.loop_le
  by_cases hstart : s.Resumes p
  · have hzero := hstart.1
    constructor <;>
      simp [terminalBufUpdate, hstart, hzero, htype, tSendEvent, Msg.IsSend, hidle]
  · constructor <;> simp [terminalBufUpdate, hstart, htype, hidle, hloop]

theorem packetArrive_effect
    (htype : msg.type = .tArrive) (h : packetArrive p env n s msg = some r) :
    TermEffect n s r.state msg r.outs := by
  simp only [packetArrive, Option.ite_none_right_eq_some, Option.bind_eq_some_iff,
    Option.map_eq_some_iff] at h
  obtain ⟨-, i, -, stats, -, rfl⟩ := h
  have hremote : ∀ s' data, flight (sendRemoteEvent env s' msg data) = none := by
    intro s' data
    rw [sendRemoteEvent]
    split <;> rfl
  have houts : ∀ x, (arrivalCredit p env s msg ::
      (if Delivers p s msg then [sendRemoteEvent env x msg (arrivedEntry s msg).remoteEventData]
        else [])).filterMap flight = [(msg.intmLpId, { env.blank with
          type := .rBuffer, vcIndex := msg.vcIndex, outputChan := msg.outputChan })] := by
    intro x
    by_cases hd : Delivers p s msg <;> simp [hd, hremote, arrivalCredit]
  constructor
  case idle_le => exact hready.idle_le
  case loop_le => exact hready.loop_le
  case sends => simp [houts, Msg.IsSend]
  case loops => simp [houts, htype, Terminal.countArrival, Msg.IsSend, sendAt]

/-- **The terminal.** -/
theorem terminalEvent_effect
    (h : terminalEvent p env n s msg = some r) : TermEffect n s r.state msg r.outs := by
  unfold terminalEvent at h
  split at h
  · exact packetGenerate_effect hready ‹_› h
  · exact packetArrive_effect hready ‹_› h
  · obtain rfl := Option.some.inj h
    exact packetSend_effect hready ‹_›
  · obtain rfl := Option.some.inj h
    exact terminalBufUpdate_effect hready ‹_›
  · cases h

end

end

/-! ### The router -/

section

variable {s s' : Router} {L L' : Lane → List ℕ} {outs : List Out}

theorem flight_routerCreditSend (p : Param) (env : Env) (pos : ℤ) (c : Msg) : ∃ d m,
    flight (routerCreditSend p env pos c) = some (d, m) ∧ ∀ v, ¬ m.IsSend v := by
  unfold routerCreditSend
  split <;> exact ⟨_, _, rfl, by simp [Msg.IsSend]⟩

theorem sentMsg_not_isSend (port vc : ℕ) (c : Msg) (v : ℕ) :
    ¬ (sentMsg p n port vc c).IsSend v := by
  by_cases hport : p.numCn ≤ port <;> simp [Msg.IsSend, sentMsg, hport]

/-- What an event of a router does to its loops. -/
structure LoopEffect (n : ℕ) (s s' : Router) (msg : Msg) (outs : List (LpName × Msg)) : Prop where
  loop_le : ∀ v, s'.inSendLoop v ≤ 1
  sends : ∀ x ∈ outs, x.1 = .router n ∨ ∀ v, ¬ x.2.IsSend v
  loops : ∀ v, s'.inSendLoop v + (if msg.type = .rSend ∧ msg.vcIndex = v then 1 else 0) =
    s.inSendLoop v + flightSum (sendAt v (.router n)) outs

theorem Wakes.effect {port : ℕ} {cond : Prop} (h : Wakes env n s s' port cond outs)
    (hle : ∀ v, s.inSendLoop v ≤ 1) : (∀ v, s'.inSendLoop v ≤ 1) ∧
      (∀ x ∈ outs.filterMap flight, x.1 = .router n ∨ ∀ v, ¬ x.2.IsSend v) ∧
      ∀ v, s'.inSendLoop v =
        s.inSendLoop v + flightSum (sendAt v (.router n)) (outs.filterMap flight) := by
  rcases h with ⟨⟨hzero, -⟩, hloop, rfl⟩ | ⟨-, hloop, rfl⟩
  · rw [hloop]
    refine ⟨fun v => ?_, by simp [rSendEvent], fun v => ?_⟩
    · by_cases hv : v = port
      · subst hv
        simp
      · rw [Function.update_of_ne hv]
        exact hle v
    · by_cases hv : v = port
      · subst hv
        simp [hzero, rSendEvent, Msg.IsSend]
      · simp [hv, rSendEvent, Msg.IsSend, Ne.symm hv]
  · simp [hloop, hle]

theorem RouterStep.loops (h : RouterStep p env n s L msg s' L' outs)
    (hle : ∀ v, s.inSendLoop v ≤ 1)
    (hsend : msg.type = .rSend → s.inSendLoop msg.vcIndex = 1) :
    LoopEffect n s s' msg (outs.filterMap flight) := by
  have hcredit := flight_routerCreditSend p env
  cases h with
  | @place outs stop type _ _ _ _ _ _ _ _ loop =>
    obtain ⟨h1, h2, h3⟩ := loop.effect hle
    obtain ⟨d, m, hd, hm⟩ := hcredit s.rngDraws msg
    refine ⟨h1, ?_, fun v => ?_⟩
    · rw [List.filterMap_cons_some hd]
      rintro x hx
      rcases List.mem_cons.1 hx with rfl | hx
      · exact .inr hm
      · exact h2 x hx
    · rw [List.filterMap_cons_some hd, flightSum_cons, sendAt_of_not (hm v), h3, type]
      simp
  | park stop type _ _ _ _ _ _ _ _ _ loop =>
    refine ⟨fun v => by rw [loop]; exact hle v, by simp, fun v => ?_⟩
    simp [loop, type]
  | parkTwice stop port type _ _ _ _ _ _ _ _ _ _ _ _ loop =>
    obtain ⟨h1, h2, h3⟩ := loop.effect hle
    refine ⟨h1, h2, fun v => ?_⟩
    rw [h3, type]
    simp
  | halt type _ _ _ _ _ loop =>
    refine ⟨fun v => ?_, by simp, fun v => ?_⟩
    · rw [loop]
      by_cases hv : v = msg.vcIndex
      · subst hv
        simp
      · rw [Function.update_of_ne hv]
        exact hle v
    · rw [loop]
      by_cases hv : v = msg.vcIndex
      · subst hv
        simp [type, hsend type]
      · simp [hv, Ne.symm hv]
  | send a vc c l dest ts ts' type _ _ _ _ _ _ _ loop =>
    refine ⟨fun v => by rw [loop]; exact hle v, ?_, fun v => ?_⟩
    · simp [rSendEvent, sentMsg_not_isSend]
    · simp [loop, type, rSendEvent, sendAt_of_not (sentMsg_not_isSend _ _ _ v), Msg.IsSend]
  | escape a c l dest ts ts' type _ _ _ _ _ _ _ _ _ loop =>
    obtain ⟨d, m, hd, hm⟩ := hcredit s.rngDraws c.msg
    refine ⟨fun v => by rw [loop]; exact hle v, ?_, fun v => ?_⟩
    · rw [List.filterMap_cons_some hd]
      simp [rSendEvent, sentMsg_not_isSend, hm]
    · rw [List.filterMap_cons_some hd]
      simp [loop, type, rSendEvent, sendAt_of_not (sentMsg_not_isSend _ _ _ v), Msg.IsSend,
        sendAt_of_not (hm v)]
  | release type _ _ _ _ loop =>
    obtain ⟨h1, h2, h3⟩ := loop.effect hle
    refine ⟨h1, h2, fun v => ?_⟩
    rw [h3, type]
    simp
  | @pass outs a c l type _ _ _ _ _ _ _ loop =>
    obtain ⟨h1, h2, h3⟩ := loop.effect hle
    obtain ⟨d, m, hd, hm⟩ := hcredit s.rngDraws c.msg
    refine ⟨h1, ?_, fun v => ?_⟩
    · rw [List.filterMap_cons_some hd]
      rintro x hx
      rcases List.mem_cons.1 hx with rfl | hx
      · exact .inr hm
      · exact h2 x hx
    · rw [List.filterMap_cons_some hd, flightSum_cons, sendAt_of_not (hm v), h3, type]
      simp

theorem Ready.send {s : LpState (.router n)} (h : Ready p (.router n) s msg)
    (htype : msg.type = .rSend) : Router.inSendLoop s msg.vcIndex = 1 := by
  obtain ⟨-, hle⟩ : (∃ L, Router.Ok p s L) ∧ ∀ v, Router.inSendLoop s v ≤ 1 := h.lp
  have h1 := h.loop msg.vcIndex
  rw [sendAt_self, if_pos (.inr ⟨htype, rfl⟩)] at h1
  exact le_antisymm (hle _) h1

end

/-! ### Every event -/

theorem isSend_of_terminalEvent {s : Terminal} (h : terminalEvent p env n s msg = some r) (v : ℕ) :
    msg.IsSend v ↔ msg.type = .tSend ∧ v = 0 := by
  unfold terminalEvent at h
  split at h <;> simp_all [Msg.IsSend]

theorem isSend_of_routerEvent {s : Router} {r : Result Router}
    (h : routerEvent p env n s msg = some r) (v : ℕ) :
    msg.IsSend v ↔ msg.type = .rSend ∧ msg.vcIndex = v := by
  unfold routerEvent at h
  split at h <;> simp_all [Msg.IsSend]

/-- **What an event does.** -/
theorem handle_effect {i : LpName} {s s' : LpState i} {outs : List (LpName × Msg)}
    (hready : Ready p i s msg) (h : handle p env i s msg = some (s', outs)) :
    Effect p i s s' msg outs := by
  cases i with
  | terminal n =>
    obtain ⟨r, hr, hx⟩ := Option.map_eq_some_iff.1 h
    obtain ⟨rfl, rfl⟩ := Prod.mk.inj hx
    have heff := terminalEvent_effect hready.term hr
    have hsend := isSend_of_terminalEvent hr
    refine ⟨⟨heff.idle_le, heff.loop_le⟩, fun x hx => ?_, fun v => ?_⟩
    · exact (heff.sends x hx).imp_left And.left
    · rw [sendAt_self]
      simp only [hsend, loopFlag]
      by_cases hv : v = 0
      · subst hv
        simpa using heff.loops
      · -- a terminal has only one loop
        have hzero : flightSum (sendAt v (.terminal n)) (r.outs.filterMap flight) = 0 := by
          refine List.sum_eq_zero fun y hy => ?_
          obtain ⟨x, hx, rfl⟩ := List.mem_map.1 hy
          refine sendAt_of_not fun hnot => ?_
          rcases heff.sends x hx with ⟨-, htype⟩ | hx
          · simp [Msg.IsSend, htype, hv] at hnot
          · exact hx v hnot
        simp [hv, hzero]
  | router n =>
    obtain ⟨r, hr, hx⟩ := Option.map_eq_some_iff.1 h
    obtain ⟨rfl, rfl⟩ := Prod.mk.inj hx
    obtain ⟨⟨L, hok⟩, hle⟩ : (∃ L, Router.Ok p s L) ∧ ∀ v, Router.inSendLoop s v ≤ 1 := hready.lp
    obtain ⟨L', hstep, hok'⟩ := routerEvent_step hok hr
    have heff := hstep.loops hle hready.send
    have hsend := isSend_of_routerEvent hr
    refine ⟨⟨⟨L', hok'⟩, heff.loop_le⟩, heff.sends, fun v => ?_⟩
    rw [sendAt_self]
    simp only [hsend]
    exact heff.loops v

theorem inv_init (p : Param) : Inv p init where
  lps i := by
    cases i with
    | terminal n => exact ⟨Nat.zero_le 1, Nat.zero_le 1⟩
    | router n => exact ⟨⟨_, Router.ok_init p⟩, fun v => Nat.zero_le 1⟩
  loops v i := by
    cases i with
    | terminal n => exact ite_self 0
    | router n => rfl

/-- **The invariant holds in every reachable state.** -/
theorem inv_of_run {ls : List (NetLabel LpName Msg Env)}
    (hls : ∀ l ∈ ls, FromOutside l) (h : (system p).machine.run init ls = some net) : Inv p net :=
  Machine.run_invariant (fun _ _ _ hinv hl hstep =>
    hinv.step hl (fun _ _ _ _ _ _ hready hh => handle_effect hready hh) hstep) (inv_init p) hls h

end CodesSim.Mesh
