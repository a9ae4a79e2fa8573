import CodesSim.FatTree.Network

/-!
# Loops and tokens of a fat tree

Every handler has the effect that the invariant of the network needs (`handle_effect`), so the
invariant holds in every reachable state (`Tree.inv_of_run`).
-/

namespace CodesSim.FatTree

open Function
open LpSystem (flightSum flightSum_nil flightSum_cons flightSum_append)

variable {T : Tree} {ω : Around} {n : ℕ} {msg : Msg}

/-! ### Events in flight -/

@[simp] theorem sendAt_method (i : LpName) (v : ℕ) (d : LpName) (msg : Msg) :
    sendAt i v d (.method msg) = if d = i ∧ msg.IsSend v then 1 else 0 := rfl

@[simp] theorem sendAt_wakeUp (i : LpName) (v : ℕ) (d : LpName) (w : WakeUp) :
    sendAt i v d (.wakeUp w) = 0 := rfl

@[simp] theorem tokenAt_method (i : LpName) (q : ℕ) (d : LpName) (msg : Msg) :
    tokenAt i q d (.method msg) =
      if d = i ∧ msg.type = .tGenerate ∧ msg.railId = q then 1 else 0 := rfl

@[simp] theorem tokenAt_wakeUp (i : LpName) (q : ℕ) (d : LpName) (w : WakeUp) :
    tokenAt i q d (.wakeUp w) = if d = i ∧ w.lane = .send q then 1 else 0 := rfl

@[simp] theorem flight_event (d : LpName) (ts : STime) (msg : Msg) :
    T.flight n (.event d ts msg) = some (d, .method msg) := rfl

@[simp] theorem flight_idle (ts : STime) (q : ℕ) : T.flight n (.idle ts q) =
    some (.terminal n, .wakeUp ⟨false, q, (T.base n).isFreezingOn⟩) := rfl

@[simp] theorem flight_server (d : Lpid) (ts : STime) (data : List UInt8) :
    T.flight n (.server d ts data) = none := rfl

@[simp] theorem flight_pull (d d' : Lpid) (size : ℕ) (t ts : STime) (data : List UInt8) :
    T.flight n (.pull d d' size t ts data) = none := rfl

@[simp] theorem lane_idle (q : ℕ) (b : Bool) : WakeUp.lane ⟨false, q, b⟩ = .send q := rfl

/-! ### The terminal -/

/-- What a handler of terminal `n` does to the loops, the tokens and the table. -/
structure Tree.TermEffect (T : Tree) (n : ℕ) (s s' : Terminal) (msg : Msg) (outs : List Out) :
    Prop where
  table : TableOk s'
  loop_le : ∀ v, s'.inSendLoop v ≤ 1
  sends : ∀ x ∈ outs.filterMap (T.flight n), T.Sends (.terminal n) x
  loops : ∀ v, s'.inSendLoop v + (if msg.IsSend v then 1 else 0) =
    s.inSendLoop v + flightSum (sendAt (.terminal n) v) (outs.filterMap (T.flight n))
  tokens : ∀ q, (if msg.type = .tGenerate ∧ msg.railId = q then 1 else 0) + s.issueIdle q =
    flightSum (tokenAt (.terminal n) q) (outs.filterMap (T.flight n)) + s'.issueIdle q

/-- What a handler of a terminal finds. -/
structure TermReady (s : Terminal) (msg : Msg) : Prop where
  table : TableOk s
  loop_le : ∀ v, s.inSendLoop v ≤ 1
  send : ∀ v, msg.IsSend v → s.inSendLoop v = 1
  token : ∀ q, (if msg.type = .tGenerate ∧ msg.railId = q then 1 else 0) + s.issueIdle q ≤ 1

variable {p : Param} {env : Env} {s : Terminal} {t : Topology}

theorem Tree.Ready.term {x : LpState (.terminal n)} (h : T.Ready (.terminal n) x (.method msg)) :
    TermReady (Nic.terminal x) msg := by
  obtain ⟨-, -, htable, hle⟩ : (Nic.ns x).Sorted ∧ (Nic.ns x).netId = .fattree ∧
    TableOk (Nic.terminal x) ∧ ∀ v, (Nic.terminal x).inSendLoop v ≤ 1 := h.lp
  refine ⟨htable, hle, fun v hv => ?_, fun q => ?_⟩
  · have h1 := h.loop v
    rw [sendAt_method, if_pos ⟨rfl, hv⟩] at h1
    exact le_antisymm (hle v) h1
  · have h1 := h.token q
    rw [tokenAt_method] at h1
    simp only [true_and] at h1
    exact h1.trans (h.token_le q)

theorem Tree.Ready.send {s : LpState (.switch n)} (h : T.Ready (.switch n) s (.method msg)) (v : ℕ)
    (hv : msg.IsSend v) : Switch.inSendLoop s v = 1 := by
  have hle : ∀ v, Switch.inSendLoop s v ≤ 1 := h.lp
  have h1 := h.loop v
  rw [sendAt_method, if_pos ⟨rfl, hv⟩] at h1
  exact le_antisymm (hle v) h1

theorem TableOk.congr {s' : Terminal} (h : TableOk s) (htbl : s'.rankTbl = s.rankTbl)
    (hpop : s'.rankTblPop = s.rankTblPop) : TableOk s' := by
  refine ⟨?_, ?_, ?_⟩
  · rw [htbl, hpop]
    exact h.keys
  · rw [hpop]
    exact h.pop_lt
  · rw [htbl]
    exact h.pos

/-! A flag that is set or taken back. -/

variable {f : ℕ → ℕ}

theorem flag_start {q : ℕ} (h : f q = 0) (v : ℕ) :
    update f q 1 v = f v + if q = v then 1 else 0 := by
  by_cases hv : v = q
  · subst hv
    simp [h]
  · simp [hv, Ne.symm hv]

theorem flag_stop {q : ℕ} (h : f q = 1) (v : ℕ) :
    update f q 0 v + (if q = v then 1 else 0) = f v := by
  by_cases hv : v = q
  · subst hv
    simp [h]
  · simp [hv, Ne.symm hv]

theorem flag_le (hf : ∀ v, f v ≤ 1) (q : ℕ) {c : ℕ} (hc : c ≤ 1) (v : ℕ) : update f q c v ≤ 1 := by
  by_cases hv : v = q
  · subst hv
    simpa using hc
  · simpa [hv] using hf v

variable {r : Result Terminal}

section

variable (hready : TermReady s msg)
include hready

theorem packetGenerate_effect
    (htype : msg.type = .tGenerate) (h : packetGenerate p env n s msg = some r) :
    T.TermEffect n s r.state msg r.outs := by
  obtain ⟨stats, -, rfl⟩ := Option.map_eq_some_iff.1 h
  have hidle : s.issueIdle msg.railId = 0 := by
    have := hready.token msg.railId
    simp only [htype, true_and, ↓reduceIte] at this
    omega
  by_cases hroom : HasRoom p s msg <;>
    by_cases hstart : s.inSendLoop (targetQueue p s msg) = 0
  all_goals
    constructor
    case table => exact hready.table.congr rfl rfl
    case loop_le =>
      intro v
      simp only [hstart, if_true, if_false]
      first | exact hready.loop_le v | exact flag_le hready.loop_le _ le_rfl v
    case sends => simp [hroom, hstart, tSendEvent, Tree.Sends, Tree.EventOk]
    case loops =>
      intro v
      simp [hroom, hstart, htype, tSendEvent, Msg.IsSend, flag_start]
    case tokens =>
      intro q
      simp [hroom, hstart, htype, tSendEvent, flag_start hidle, add_comm]

theorem stopSending_effect (htype : msg.type = .tSend) :
    T.TermEffect n s (stopSending env s msg).state msg (stopSending env s msg).outs where
  table := hready.table.congr rfl rfl
  loop_le := flag_le hready.loop_le _ zero_le_one
  sends := by simp [stopSending]
  loops v := by
    simpa [stopSending, htype, Msg.IsSend] using flag_stop (hready.send _ ⟨.inl htype, rfl⟩) v
  tokens := by simp [stopSending, htype]

theorem sendChunk_effect (htype : msg.type = .tSend) (c : Msg)
    (rest : List Msg) : T.TermEffect n s (sendChunk p env n t s msg c rest).state msg
      (sendChunk p env n t s msg c rest).outs := by
  have hloop : s.inSendLoop msg.vcIndex = 1 := hready.send _ ⟨.inl htype, rfl⟩
  have hidle : s.issueIdle msg.vcIndex ≠ 0 → s.issueIdle msg.vcIndex = 1 := by
    intro h
    have := hready.token msg.vcIndex
    omega
  by_cases hmore : GoesOn p s msg.vcIndex rest <;>
    by_cases hi : s.issueIdle msg.vcIndex = 0 <;>
    by_cases hlocal : c.HasLocal p
  all_goals
    constructor
    case table => exact hready.table.congr rfl rfl
    case loop_le =>
      intro v
      simp only [sendChunk, hmore, if_true, if_false]
      first | exact hready.loop_le v | exact flag_le hready.loop_le _ zero_le_one v
    case sends =>
      simp [sendChunk, hmore, hi, hlocal, tSendEvent, Tree.Sends, Tree.EventOk, Event.Harmless,
        List.filterMap_cons]
    case loops =>
      intro v
      simp [sendChunk, hmore, hi, hlocal, htype, tSendEvent, Msg.IsSend, flag_stop hloop,
        List.filterMap_cons]
    case tokens =>
      intro q
      have hflag := fun h => flag_stop (hidle h) q
      simp_all [sendChunk, tSendEvent, List.filterMap_cons, add_comm]

theorem packetSend_effect (htype : msg.type = .tSend) :
    T.TermEffect n s (packetSend p env n t s msg).state msg (packetSend p env n t s msg).outs := by
  unfold packetSend
  split
  · exact stopSending_effect hready htype
  · split
    · exact stopSending_effect hready htype
    · exact sendChunk_effect hready htype _ _

theorem terminalBufUpdate_effect (htype : msg.type = .tBuffer) :
    T.TermEffect n s (terminalBufUpdate p env n s msg).state msg
      (terminalBufUpdate p env n s msg).outs := by
  by_cases hstart : s.Resumes msg.vcIndex
  all_goals
    constructor
    case table => exact hready.table.congr rfl rfl
    case loop_le =>
      intro v
      simp only [terminalBufUpdate, hstart, if_true, if_false]
      first | exact hready.loop_le v | exact flag_le hready.loop_le _ le_rfl v
    case sends => simp [terminalBufUpdate, hstart, tSendEvent, Tree.Sends, Tree.EventOk]
    case loops =>
      intro v
      have hflag := fun h : s.Resumes msg.vcIndex => flag_start h.1 v
      simp_all [terminalBufUpdate, tSendEvent, Msg.IsSend]
    case tokens => simp [terminalBufUpdate, hstart, htype, tSendEvent]

end

/-! The table of incomplete messages. -/

theorem one_le_arrivedEntry (htable : TableOk s) : 1 ≤ (arrivedEntry s msg).numChunks := by
  cases he : s.rankTbl msg.key with
  | none => simp [arrivedEntry, he, HashEntry.add, HashEntry.empty]
  | some e =>
    have := htable.pos _ e he
    simp only [arrivedEntry, he, HashEntry.add, Option.getD_some]
    omega

theorem TableOk.arrive (htable : TableOk s) {s' : Terminal} (done : Prop) [Decidable done]
    (hfull : ¬ (s.rankTbl msg.key = none ∧ hashTableSize ≤ popWith s msg))
    (htbl : s'.rankTbl =
      update s.rankTbl msg.key (if done then none else some (arrivedEntry s msg)))
    (hpop : s'.rankTblPop = if done then popWith s msg - 1 else popWith s msg) : TableOk s' := by
  obtain ⟨l, hnodup, hmem, hlen⟩ := htable.keys
  have hlt := htable.pop_lt
  have hself := hmem msg.key
  refine ⟨?_, ?_, fun k e hk => ?_⟩
  · rw [htbl, hpop]
    by_cases hnew : s.rankTbl msg.key = none <;> by_cases hdone : done
    · refine ⟨l, hnodup, fun k => ?_, by simp [popWith, hnew, hdone, hlen]⟩
      by_cases hk : k = msg.key
      · subst hk
        simp [hdone, hmem, hnew]
      · simp [hk, hmem]
    · refine ⟨msg.key :: l, ?_, fun k => ?_, by simp [popWith, hnew, hdone, hlen]⟩
      · exact List.nodup_cons.2 ⟨fun h => (hself.1 h) hnew, hnodup⟩
      · by_cases hk : k = msg.key
        · subst hk
          simp [hdone]
        · simp [hk, hmem]
    · have hin : msg.key ∈ l := hself.2 hnew
      refine ⟨l.erase msg.key, hnodup.erase _, fun k => ?_, ?_⟩
      · rw [hnodup.mem_erase_iff, hmem]
        by_cases hk : k = msg.key
        · subst hk
          simp [hdone]
        · simp [hk]
      · rw [List.length_erase_of_mem hin, hlen]
        simp [popWith, hnew, hdone]
    · refine ⟨l, hnodup, fun k => ?_, by simp [popWith, hnew, hdone, hlen]⟩
      by_cases hk : k = msg.key
      · subst hk
        simp [hdone, hmem, hnew]
      · simp [hk, hmem]
  · rw [hpop]
    by_cases hnew : s.rankTbl msg.key = none
    · have hroom : ¬ hashTableSize ≤ popWith s msg := fun h => hfull ⟨hnew, h⟩
      split <;> omega
    · simp only [popWith, hnew, if_false, add_zero]
      split <;> omega
  · rw [htbl] at hk
    by_cases hkey : k = msg.key
    · subst hkey
      rw [update_self] at hk
      split at hk
      · cases hk
      · obtain rfl := Option.some.inj hk
        exact one_le_arrivedEntry htable
    · rw [update_of_ne hkey] at hk
      exact htable.pos k e hk

theorem packetArrive_effect (hready : TermReady s msg)
    (htype : msg.type = .tArrive) (h : packetArrive p env n t s msg = some r) :
    T.TermEffect n s r.state msg r.outs := by
  simp only [packetArrive, Option.ite_none_left_eq_some, Option.bind_eq_some_iff,
    Option.map_eq_some_iff] at h
  obtain ⟨hfull, i, -, stats, -, rfl⟩ := h
  have hremote : ∀ s' data, T.flight n (sendRemoteEvent env s' msg data) = none := by
    intro s' data
    rw [sendRemoteEvent]
    split <;> rfl
  have houts : ∀ x, (arrivalCredit p env n t s msg ::
      (if Delivers p s msg then [sendRemoteEvent env x msg (arrivedEntry s msg).remoteEventData]
        else [])).filterMap (T.flight n) = [(.switch (t.switchLp n msg.railId),
          .method { env.blank with type := .sBuffer, vcIndex := msg.vcIndex })] := by
    intro x
    by_cases hd : Delivers p s msg <;> simp [hd, hremote, arrivalCredit]
  constructor
  case table => exact hready.table.arrive (Completes p s msg) hfull rfl rfl
  case loop_le => exact hready.loop_le
  case sends => simp [houts, Tree.Sends, Tree.EventOk, Event.Harmless]
  case loops => simp [houts, htype, Terminal.countArrival, Msg.IsSend]
  case tokens => simp [houts, htype, Terminal.countArrival]

/-- **The terminal.** -/
theorem terminalEvent_effect (hready : TermReady s msg)
    (h : terminalEvent p env n t s msg = some r) : T.TermEffect n s r.state msg r.outs := by
  unfold terminalEvent at h
  split at h
  · exact packetGenerate_effect hready ‹_› h
  · exact packetArrive_effect hready ‹_› h
  · obtain rfl := Option.some.inj h
    exact packetSend_effect hready ‹_›
  · obtain rfl := Option.some.inj h
    exact terminalBufUpdate_effect hready ‹_›
  · cases h

/-! ### The switch -/

/-- What a handler of switch `n` does to the loops. -/
structure Tree.SwitchEffect (T : Tree) (n : ℕ) (s s' : Switch) (msg : Msg) (outs : List Out) :
    Prop where
  loop_le : ∀ v, s'.inSendLoop v ≤ 1
  sends : ∀ x ∈ outs.filterMap (T.flight n), T.Sends (.switch n) x
  loops : ∀ v, s'.inSendLoop v + (if msg.IsSend v then 1 else 0) =
    s.inSendLoop v + flightSum (sendAt (.switch n) v) (outs.filterMap (T.flight n))
  tokens : ∀ q, flightSum (tokenAt (.switch n) q) (outs.filterMap (T.flight n)) = 0

variable {conf : SwitchConf} {s : Switch}

theorem flight_switchCreditSend (pos : ℤ) (c : Msg) (vc : ℕ) : ∃ d m,
    T.flight n (switchCreditSend p env pos c vc) = some (d, .method m) ∧
      (Event.method m).Harmless := by
  unfold switchCreditSend
  split <;> exact ⟨_, _, rfl, by simp [Event.Harmless]⟩

theorem receivePlaced_effect (hle : ∀ v, s.inSendLoop v ≤ 1) (htype : msg.type = .sArrive)
    (port : ℕ) (rng : ℤ) : T.SwitchEffect n s (receivePlaced p env n s msg port rng).state msg
      (receivePlaced p env n s msg port rng).outs := by
  obtain ⟨d, m, hcredit, hm⟩ :=
    @flight_switchCreditSend T n p env rng msg msg.vcIndex
  by_cases hstart : s.inSendLoop port = 0
  all_goals
    constructor
    case loop_le =>
      intro v
      simp only [receivePlaced, hstart, if_true, if_false]
      first | exact hle v | exact flag_le hle _ le_rfl v
    case sends =>
      simp [receivePlaced, hstart, sSendEvent, hcredit, Tree.Sends, Tree.EventOk, hm]
    case loops =>
      intro v
      have hflag := fun h => flag_start (f := s.inSendLoop) (q := port) h v
      have := hm.1
      have := hm.2.1
      simp_all [receivePlaced, sSendEvent, Msg.IsSend]
    case tokens => simp [receivePlaced, hstart, sSendEvent, hcredit, hm.2.2]

theorem switchPacketReceive_effect {r : Result Switch} (hle : ∀ v, s.inSendLoop v ≤ 1)
    (htype : msg.type = .sArrive) (h : switchPacketReceive p env conf n s msg = some r) :
    T.SwitchEffect n s r.state msg r.outs := by
  obtain ⟨⟨port, draws⟩, -, h⟩ := Option.bind_eq_some_iff.1 h
  simp only [Option.ite_none_right_eq_some, Option.some.injEq] at h
  obtain ⟨-, rfl⟩ := h
  split
  · exact receivePlaced_effect hle htype port _
  · exact ⟨hle, by simp [receiveParked], by simp [receiveParked, htype, Msg.IsSend],
      by simp [receiveParked]⟩

theorem switchPacketSend_effect (hle : ∀ v, s.inSendLoop v ≤ 1) (htype : msg.type = .sSend)
    (hloop : s.inSendLoop msg.vcIndex = 1) :
    T.SwitchEffect n s (switchPacketSend p env conf n s msg).state msg
      (switchPacketSend p env conf n s msg).outs := by
  unfold switchPacketSend
  split
  · refine ⟨flag_le hle _ zero_le_one, by simp, fun v => ?_, by simp⟩
    simpa [htype, Msg.IsSend] using flag_stop hloop v
  · rename_i c rest hmsgs
    have hsent : (sentMsg conf n msg.vcIndex c).type ≠ .tSend ∧
        (sentMsg conf n msg.vcIndex c).type ≠ .sSend ∧
        (sentMsg conf n msg.vcIndex c).type ≠ .tGenerate := by
      simp only [sentMsg]
      split <;> simp
    by_cases hrest : rest = []
    all_goals
      constructor
      case loop_le =>
        intro v
        simp only [switchSendChunk, hrest, if_true, if_false]
        first | exact hle v | exact flag_le hle _ zero_le_one v
      case sends =>
        simp [switchSendChunk, hrest, sSendEvent, Tree.Sends, Tree.EventOk, Event.Harmless, hsent]
      case loops =>
        intro v
        simp [switchSendChunk, hrest, htype, sSendEvent, Msg.IsSend, flag_stop hloop, hsent]
      case tokens => simp [switchSendChunk, hrest, sSendEvent, hsent]

theorem passOn_effect (port : ℕ) : (s.passOn p env port).1.inSendLoop = s.inSendLoop ∧
    ∀ x ∈ (s.passOn p env port).2.filterMap (T.flight n), ∃ m, x.2 = .method m ∧
      (Event.method m).Harmless := by
  unfold Switch.passOn
  split
  · exact ⟨rfl, by simp⟩
  · rename_i c rest hq
    obtain ⟨d, m, hcredit, hm⟩ := @flight_switchCreditSend T n p env s.rngDraws c c.savedVc
    refine ⟨rfl, fun x hx => ?_⟩
    simp only [List.filterMap_cons, hcredit, List.filterMap_nil, List.mem_singleton] at hx
    subst hx
    exact ⟨m, rfl, hm⟩

theorem flightSum_harmless {l : List (LpName × Event)}
    (h : ∀ x ∈ l, ∃ m, x.2 = .method m ∧ (Event.method m).Harmless) (i : LpName) (v : ℕ) :
    flightSum (sendAt i v) l = 0 ∧ flightSum (tokenAt i v) l = 0 := by
  induction l with
  | nil => exact ⟨rfl, rfl⟩
  | cons x l ih =>
    obtain ⟨d, e⟩ := x
    obtain ⟨m, rfl, hm⟩ := h _ List.mem_cons_self
    obtain ⟨h1, h2⟩ := ih fun y hy => h y (List.mem_cons_of_mem _ hy)
    simp [h1, h2, Msg.IsSend, hm.1, hm.2.1, hm.2.2]

theorem switchBufUpdate_effect (hle : ∀ v, s.inSendLoop v ≤ 1) (htype : msg.type = .sBuffer) :
    T.SwitchEffect n s (switchBufUpdate p env n s msg).state msg
      (switchBufUpdate p env n s msg).outs := by
  obtain ⟨hloop, hpassed⟩ := @passOn_effect T n p env (s.release p env msg.vcIndex) msg.vcIndex
  have hsum := flightSum_harmless hpassed (.switch n)
  have hrelease : (s.release p env msg.vcIndex).inSendLoop = s.inSendLoop := rfl
  rw [hrelease] at hloop
  simp only [switchBufUpdate]
  generalize hx : (s.release p env msg.vcIndex).passOn p env msg.vcIndex = x at *
  have hsends : ∀ y ∈ x.2.filterMap (T.flight n), T.Sends (.switch n) y := by
    intro y hy
    obtain ⟨m, hm, hharm⟩ := hpassed y hy
    obtain ⟨d, e⟩ := y
    obtain rfl : e = .method m := hm
    exact ⟨by cases d <;> trivial, .inr hharm⟩
  by_cases hstart : x.1.Resumes msg.vcIndex
  · have hflag := fun v => flag_start (hloop ▸ hstart.1) v
    constructor
    case loop_le =>
      intro v
      simp only [hstart, if_true, hloop]
      exact flag_le hle _ le_rfl v
    case sends =>
      intro y hy
      simp only [hstart, if_true, List.filterMap_append, List.mem_append] at hy
      rcases hy with hy | hy
      · exact hsends y hy
      · simp only [sSendEvent, List.filterMap_cons, flight_event, List.filterMap_nil,
          List.mem_singleton] at hy
        subst hy
        exact ⟨trivial, .inl rfl⟩
    case loops =>
      intro v
      simp [hstart, htype, sSendEvent, Msg.IsSend, hloop, hflag, (hsum v).1]
    case tokens =>
      intro q
      simp [hstart, sSendEvent, (hsum q).2]
  · constructor
    case loop_le => simpa [hstart, hloop] using hle
    case sends => simpa [hstart] using hsends
    case loops =>
      intro v
      simp [hstart, htype, Msg.IsSend, hloop, (hsum v).1]
    case tokens =>
      intro q
      simp [hstart, (hsum q).2]

/-- **The switch.** -/
theorem switchEvent_effect {r : Result Switch} (hle : ∀ v, s.inSendLoop v ≤ 1)
    (hsend : ∀ v, msg.IsSend v → s.inSendLoop v = 1)
    (h : switchEvent p env conf n s msg = some r) : T.SwitchEffect n s r.state msg r.outs := by
  unfold switchEvent at h
  split at h
  · obtain rfl := Option.some.inj h
    exact switchPacketSend_effect hle ‹_› (hsend _ ⟨.inr ‹_›, rfl⟩)
  · exact switchPacketReceive_effect hle ‹_› h
  · obtain rfl := Option.some.inj h
    exact switchBufUpdate_effect hle ‹_›
  · cases h

/-! ### The base LP -/

theorem flightSum_packet {l : Lane} {outs : List BaseOut} (h : IsPacketOf l outs) (env : Env) :
    (∀ x ∈ outs.filterMap (T.baseFlight env n), T.Sends (.terminal n) x) ∧
      (∀ v, flightSum (sendAt (.terminal n) v) (outs.filterMap (T.baseFlight env n)) = 0) ∧
      ∀ q, flightSum (tokenAt (.terminal n) q) (outs.filterMap (T.baseFlight env n)) =
        if l = .send q then 1 else 0 := by
  obtain ⟨x, another, rfl, hx⟩ := h
  cases l with
  | recv => simp [QItem.call, Tree.baseFlight, List.filterMap_cons]
  | send k =>
    have hk := hx k rfl
    simp [QItem.call, Tree.baseFlight, packetEvent, Tree.Sends, Tree.EventOk, Msg.IsSend, hk]

/-- Nothing that goes round is sent without a step of a loop. -/
theorem flightSum_quiet {outs : List BaseOut} (h : ∀ o ∈ outs, o.Quiet) (env : Env) :
    (∀ x ∈ outs.filterMap (T.baseFlight env n), T.Sends (.terminal n) x) ∧
      (∀ v, flightSum (sendAt (.terminal n) v) (outs.filterMap (T.baseFlight env n)) = 0) ∧
      ∀ q, flightSum (tokenAt (.terminal n) q) (outs.filterMap (T.baseFlight env n)) = 0 := by
  induction outs with
  | nil => simp
  | cons o outs ih =>
    obtain ⟨h1, h2, h3⟩ := ih fun o' ho' => h o' (List.mem_cons_of_mem _ ho')
    have ho := h o List.mem_cons_self
    cases o with
    | payload => exact ⟨h1, h2, h3⟩
    | newMsg ts m =>
      have hsum : ∀ ψ : LpName → Event → ℕ, ψ (.terminal n) (.newMsg m) = 0 →
          flightSum ψ ((.newMsg ts m :: outs).filterMap (T.baseFlight env n)) =
            flightSum ψ (outs.filterMap (T.baseFlight env n)) := by
        intro ψ hψ
        simp [Tree.baseFlight, hψ]
      refine ⟨fun x hx => ?_, fun v => (hsum _ rfl).trans (h2 v), fun q =>
        (hsum _ rfl).trans (h3 q)⟩
      simp only [List.filterMap_cons, Tree.baseFlight, List.mem_cons] at hx
      rcases hx with rfl | hx
      · exact ⟨trivial, .inl rfl⟩
      · exact h1 x hx
    | schedNext | call => exact ho.elim

theorem baseLoop_setLoop {x : Nic} {l : Lane} {f : ℕ} (q : ℕ) :
    ((x.ns.setLoop l f).loop? (.send q)).getD 0 =
      if l = .send q ∧ (x.ns.loop? l).isSome then f else x.baseLoop q := by
  by_cases hl : l = .send q
  · subst hl
    cases hs : x.ns.loop? (.send q) with
    | none =>
      have : ((x.ns.setLoop (.send q) f).loop? (.send q)).isSome = (x.ns.loop? (.send q)).isSome :=
        BaseState.isSome_loop?_setLoop
      rw [hs, Option.isSome_none, Option.isSome_eq_false_iff, Option.isNone_iff_eq_none] at this
      simp [this, Nic.baseLoop, hs]
    | some f₀ => simp [BaseState.loop?_setLoop_self hs]
  · rw [if_neg (fun h => hl h.1), Nic.baseLoop]
    congr 1
    cases l <;> simp_all [BaseState.setLoop, BaseState.loop?]

theorem handleBase_effect {x x' : Nic} {e : BaseEvent} {ev : Event} {w : Option Lane}
    {outs : List (LpName × Event)} (hready : T.Ready (.terminal n) x ev)
    (hd : ¬ e.Dropped (T.base n)) (hw : (if e.type = .schedNext then some e.msg.lane else none) = w)
    (hsend : ∀ v, sendAt (.terminal n) v (.terminal n) ev = 0)
    (htoken : ∀ q, tokenAt (.terminal n) q (.terminal n) ev = if w = some (.send q) then 1 else 0)
    (hlane : ∀ l, w = some l → ∃ q, l = .send q)
    (h : T.handleBase ω n x e = some (x', outs)) : T.Effect (.terminal n) x x' ev outs := by
  obtain ⟨⟨sv, res⟩, hbase, hx⟩ := Option.map_eq_some_iff.1 h
  obtain ⟨rfl, rfl⟩ := Prod.mk.inj hx
  obtain ⟨hsorted, hnet, htable, hle⟩ : x.ns.Sorted ∧ x.ns.netId = .fattree ∧
    TableOk x.terminal ∧ ∀ v, x.terminal.inSendLoop v ≤ 1 := hready.lp
  have hr : ¬ x.ns.Reschedules := by simp [BaseState.Reschedules, hnet]
  obtain ⟨hsorted', hnet', hover⟩ := baseEvent_handover hsorted hr hd hbase
  rw [hw] at hover
  have hlp : LpOk (.terminal n) ({ x with servers := sv, ns := res.state } : Nic) :=
    ⟨hsorted', hnet'.trans hnet, htable, hle⟩
  have htok : ∀ q, (if w = some (.send q) then 1 else 0) + x.terminal.issueIdle q ≤ x.baseLoop q :=
    fun q => htoken q ▸ hready.token q
  have hle1 : ∀ q, x.baseLoop q ≤ 1 := hready.token_le
  -- the terminal is not touched, so only the loops of the base LP count
  have hloops : ∀ v, flightSum (sendAt (.terminal n) v)
      (res.outs.filterMap (T.baseFlight ω.env n)) = 0 → loopFlag (.terminal n)
        ({ x with servers := sv, ns := res.state } : Nic) v + sendAt (.terminal n) v
        (.terminal n) ev
      = loopFlag (.terminal n) x v + flightSum (sendAt (.terminal n) v)
        (res.outs.filterMap (T.baseFlight ω.env n)) := by
    intro v hv
    rw [hsend, hv]
    rfl
  have htokens : ∀ q, ((res.state.loop? (.send q)).getD 0) + (if w = some (.send q) then 1 else 0) =
      x.baseLoop q + flightSum (tokenAt (.terminal n) q)
        (res.outs.filterMap (T.baseFlight ω.env n)) →
      baseFlag (.terminal n) ({ x with servers := sv, ns := res.state } : Nic) q +
          tokenAt (.terminal n) q (.terminal n) ev + idleFlag (.terminal n) x q =
        baseFlag (.terminal n) x q + flightSum (tokenAt (.terminal n) q)
          (res.outs.filterMap (T.baseFlight ω.env n)) +
        idleFlag (.terminal n) ({ x with servers := sv, ns := res.state } : Nic) q := by
    intro q hq
    rw [htoken]
    exact congrArg (· + x.terminal.issueIdle q) hq
  cases hover with
  | quiet loops quiet =>
    obtain ⟨h1, h2, h3⟩ := @flightSum_quiet T n _ quiet ω.env
    refine ⟨hlp, h1, fun v => hloops v (h2 v), fun q => htokens q ?_, fun q => ?_⟩
    · rw [h3, loops]
      simp [Nic.baseLoop]
    · exact (congrArg (Option.getD · 0) (loops (.send q))).trans_le (hle1 q)
  | start l idle loops packet =>
    obtain ⟨h1, h2, h3⟩ := @flightSum_packet T n _ _ packet ω.env
    have hnew : ∀ q, ((res.state.loop? (.send q)).getD 0) =
        if l = .send q then 1 else x.baseLoop q := by
      intro q
      rw [loops, baseLoop_setLoop]
      simp [idle]
    refine ⟨hlp, h1, fun v => hloops v (h2 v), fun q => htokens q ?_, fun q => ?_⟩
    · rw [h3, hnew]
      by_cases hq : l = .send q
      · subst hq
        simp [Nic.baseLoop, idle]
      · simp [hq]
    · refine (hnew q).trans_le ?_
      split
      · exact le_rfl
      · exact hle1 q
  | stop l s₀ sched empty state nothing =>
    obtain ⟨k, rfl⟩ := hlane l rfl
    have hk := htok k
    have hk1 := hle1 k
    have hnew : ∀ q, ((res.state.loop? (.send q)).getD 0) =
        if k = q then 0 else x.baseLoop q := by
      intro q
      rw [state, baseLoop_setLoop]
      by_cases hq : k = q
      · subst hq
        -- the queue has a loop, since it had a token
        cases hs : x.ns.loop? (.send k) with
        | none => simp [Nic.baseLoop, hs]
        | some f => simp
      · simp [hq]
    refine ⟨hlp, by simp [nothing], fun v => hloops v (by simp [nothing]), fun q => htokens q ?_,
      fun q => ?_⟩
    · rw [hnew]
      by_cases hq : k = q
      · subst hq
        simp [nothing] at hk ⊢
        omega
      · simp [nothing, hq]
    · refine (hnew q).trans_le ?_
      split
      · exact Nat.zero_le 1
      · exact hle1 q
  | goOn l loops packet =>
    obtain ⟨h1, h2, h3⟩ := @flightSum_packet T n _ _ packet ω.env
    refine ⟨hlp, h1, fun v => hloops v (h2 v), fun q => htokens q ?_, fun q => ?_⟩
    · rw [h3, loops]
      simp [Nic.baseLoop]
    · exact (congrArg (Option.getD · 0) (loops (.send q))).trans_le (hle1 q)

/-! ### Every event -/

/-- **What an event does.** -/
theorem handle_effect {i : LpName} {s s' : LpState i} {e : Event} {outs : List (LpName × Event)}
    (hready : T.Ready i s e) (h : T.handle ω i s e = some (s', outs)) : T.Effect i s s' e outs := by
  cases i with
  | terminal n =>
    cases e with
    | newMsg m =>
      refine handleBase_effect hready ?_ rfl (fun v => rfl) (fun q => rfl) (by simp) h
      rintro ⟨-, htype, -⟩
      cases htype
    | wakeUp w =>
      obtain ⟨hfresh, hremote⟩ : w.createdInSurrogate = (T.base n).isFreezingOn ∧
        w.isFromRemote = false := hready.event
      refine handleBase_effect hready ?_ rfl (fun v => rfl) (fun q => ?_) (fun l hl => ?_) h
      · rintro ⟨hfreeze, -, hdropped⟩
        exact Bool.false_ne_true (hfreeze.symm.trans (hfresh.symm.trans hdropped))
      · have hlane : (if (w.event ω.fields ω.env.now ω.poffset).type = .schedNext then
            some (w.event ω.fields ω.env.now ω.poffset).msg.lane else none) = some w.lane := rfl
        rw [hlane]
        simp
      · have hl' : w.lane = l := Option.some.inj hl
        rw [← hl', WakeUp.lane, hremote]
        exact ⟨w.queueOffset, rfl⟩
    | method msg =>
      obtain ⟨r, hr, hx⟩ := Option.map_eq_some_iff.1 h
      obtain ⟨rfl, rfl⟩ := Prod.mk.inj hx
      obtain ⟨hsorted, hnet, htable, hle⟩ : (Nic.ns s).Sorted ∧ (Nic.ns s).netId = .fattree ∧
        TableOk (Nic.terminal s) ∧ ∀ v, (Nic.terminal s).inSendLoop v ≤ 1 := hready.lp
      have heff := terminalEvent_effect (T := T) hready.term hr
      refine ⟨⟨hsorted, hnet, heff.table, heff.loop_le⟩, heff.sends, fun v => ?_, fun q => ?_,
        hready.token_le⟩
      · have := heff.loops v
        simpa [loopFlag] using this
      · have := heff.tokens q
        simp only [tokenAt_method, true_and, idleFlag, baseFlag, Nic.baseLoop] at this ⊢
        omega
  | switch n =>
    cases e with
    | newMsg | wakeUp => cases h
    | method msg =>
      obtain ⟨r, hr, hx⟩ := Option.map_eq_some_iff.1 h
      obtain ⟨rfl, rfl⟩ := Prod.mk.inj hx
      have hle : ∀ v, Switch.inSendLoop s v ≤ 1 := hready.lp
      have heff := switchEvent_effect (T := T) hle hready.send hr
      refine ⟨heff.loop_le, heff.sends, fun v => ?_, fun q => ?_, hready.token_le⟩
      · have := heff.loops v
        simpa [loopFlag] using this
      · have h1 := hready.token q
        have h2 := heff.tokens q
        simp only [baseFlag, idleFlag] at h1 ⊢
        omega

theorem Tree.inv_init (T : Tree) : T.Inv T.init where
  lps i := by
    cases i with
    | terminal n =>
      refine ⟨BaseState.sorted_init _ _ _ _, rfl, ⟨⟨[], List.nodup_nil, fun k => ?_, rfl⟩,
        (by decide : 0 < hashTableSize), fun k e he => ?_⟩, fun v => Nat.zero_le 1⟩
      · have h0 : Terminal.init.rankTbl k = none := rfl
        simp only [List.not_mem_nil, false_iff, not_not]
        exact h0
      · cases he
    | switch n => exact fun v => Nat.zero_le 1
  events := by simp [Tree.init]
  loops i v := by cases i <;> rfl
  tokens i q := by
    cases i with
    | terminal n =>
      have : ((List.replicate T.baseParams.numQueues 0)[q]?).getD 0 = 0 := by
        rw [List.getElem?_replicate]
        split <;> rfl
      exact this
    | switch n => rfl
  token_le i q := by
    cases i with
    | terminal n =>
      have : ((List.replicate T.baseParams.numQueues 0)[q]?).getD 0 = 0 := by
        rw [List.getElem?_replicate]
        split <;> rfl
      exact this.trans_le (Nat.zero_le 1)
    | switch n => exact Nat.zero_le 1

/-- **The invariant holds in every reachable state.** -/
theorem Tree.inv_of_run {ls : List (NetLabel LpName Event Around)} {net : Net LpState Event}
    (hls : ∀ l ∈ ls, FromOutside l) (h : T.system.machine.run T.init ls = some net) : T.Inv net :=
  Machine.run_invariant (fun _ _ _ hinv hl hstep =>
    hinv.step hl (fun _ _ _ _ _ _ hready hh => handle_effect hready hh) hstep) T.inv_init hls h

end CodesSim.FatTree
