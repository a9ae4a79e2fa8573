import CodesSim.FatTree.Loops

/-!
# Rollback of a fat tree

The reverse handlers undo the forward handlers with these exceptions (`UndoableTerminal`,
`UndoableSwitch`).

* The largest event of a category is not put back.
* A chunk that brings the payload of a message whose first chunks are already there leaves the
  payload in the table.
* The latency drawn for the answer to a pull is not given back.
* With adaptive routing a switch always gives one random number back, but it draws none for a chunk
  to one of its own terminals.

`rollback_iff` says that these are the only ones, in every reachable state.
-/

namespace CodesSim.FatTree

open Function

/-! ### Conditions -/

/-- `s'` is `s` again, except for the names of the categories. -/
structure Restored (s s' : Terminal) : Prop where
  rest : { s' with stats := s.stats } = s
  stats : ∀ i, (s'.stats i).figures = (s.stats i).figures

/-- The size of the event that a packet is handed over with. -/
def eventSize (p : Param) (msg : Msg) : ℤ :=
  p.msgSz + msg.remoteEvent.length + msg.localEvent.length

/-- **The condition** for the events of a terminal. -/
def UndoableTerminal (p : Param) (s : Terminal) (msg : Msg) : Prop :=
  match msg.type with
  | .tGenerate => ∀ i, findStats s.stats msg.category = some i →
      eventSize p msg ≤ (s.stats i).maxEventSize
  | .tArrive => ¬ Answers p s msg ∧ ∀ e, s.rankTbl msg.key = some e → e.remoteEventData = [] →
      msg.remoteEvent = []
  | _ => True

/-- **The condition** for the events of a switch. -/
def UndoableSwitch (p : Param) (conf : SwitchConf) (msg : Msg) : Prop :=
  msg.type = .sArrive → p.routing = .static ∨ ¬ conf.Attached (destTermLocalId p msg)

/-! ### Lists and arrays -/

@[simp] theorem length_chunksOf (p : Param) (msg : Msg) :
    (chunksOf p msg).length = numChunks msg.packetSize p.chunkSize := by simp [chunksOf]

theorem Restored.refl (s : Terminal) : Restored s s := ⟨rfl, fun _ => rfl⟩

variable {p : Param} {env : Env} {t : Topology} {n : ℕ} {s : Terminal} {msg : Msg}

/-! ### The terminal -/

variable {r : Result Terminal}

theorem generate_undone (hready : TermReady s msg)
    (htype : msg.type = .tGenerate) (h : packetGenerate p env n s msg = some r) :
    ∃ s', terminalRcEventHandler p r = some s' ∧ (Restored s s' ↔ UndoableTerminal p s msg) := by
  obtain ⟨stats, hstats, rfl⟩ := Option.map_eq_some_iff.1 h
  obtain ⟨i, hfind, rfl⟩ := updateStats_eq_some.1 hstats
  have hidle : 0 = s.issueIdle msg.railId := by
    have := hready.token msg.railId
    simp only [htype, true_and, ↓reduceIte] at this
    omega
  refine ⟨{ s with stats := update s.stats i { MnStats.generated p msg (s.stats i) with
      category := msg.category
      sendCount := (MnStats.generated p msg (s.stats i)).sendCount - 1
      sendBytes := (MnStats.generated p msg (s.stats i)).sendBytes - msg.packetSize
      sendTime := (MnStats.generated p msg (s.stats i)).sendTime -
        1 / p.linkBandwidth * msg.packetSize } }, ?_, ?_⟩
  · have hchunks : ∀ l, returnTails (numChunks msg.packetSize p.chunkSize)
        (l ++ chunksOf p (generatedMsg p s msg)) = some l := by
      intro l
      have := returnTails_append l (chunksOf p (generatedMsg p s msg))
      rwa [length_chunksOf] at this
    have hlength : lengthAfter p s msg - numChunks msg.packetSize p.chunkSize * p.chunkSize =
        s.terminalLength (targetQueue p s msg) := by simp [lengthAfter]
    have hback := update_back s.inSendLoop (targetQueue p s msg) (w := 0)
    have hbackIdle := update_back s.issueIdle msg.railId hidle
    by_cases hroom : HasRoom p s msg <;>
      by_cases hstart : s.inSendLoop (targetQueue p s msg) = 0 <;>
      simp [terminalRcEventHandler, packetGenerateRc, htype, hroom, hstart, hchunks, hlength,
        updateStats, findStats_update hfind, hback, hbackIdle]
  · constructor
    · intro hr
      have := (agree_update MnStats.figures s.stats i).1 hr.stats
      simp only [UndoableTerminal, htype]
      intro j hj
      rw [hfind] at hj
      cases hj
      simp only [MnStats.figures, MnStats.counts, MnStats.generated, Prod.mk.injEq] at this
      have hmax := this.2
      split at hmax
      · simp only [eventSize]
        omega
      · simp only [eventSize]
        omega
    · intro hu
      simp only [UndoableTerminal, htype] at hu
      have hmax := hu i hfind
      refine ⟨rfl, (agree_update MnStats.figures _ _).2 ?_⟩
      simp only [eventSize] at hmax
      simp [MnStats.figures, MnStats.counts, MnStats.generated, not_lt.2 hmax]

theorem send_undone (hready : TermReady s msg) (htype : msg.type = .tSend) :
    terminalRcEventHandler p (packetSend p env n t s msg) = some s := by
  have hloop : s.inSendLoop msg.vcIndex = 1 := hready.send _ ⟨.inl htype, rfl⟩
  have hback := update_back s.inSendLoop msg.vcIndex hloop.symm
  have hstop : terminalRcEventHandler p (stopSending env s msg) = some s := by
    simp [terminalRcEventHandler, stopSending, packetSendRc, htype, hback]
  unfold packetSend
  split
  · exact hstop
  · rename_i c rest hmsgs
    split
    · exact hstop
    · have hidle : s.issueIdle msg.vcIndex ≠ 0 → 1 = s.issueIdle msg.vcIndex := by
        intro h
        have := hready.token msg.vcIndex
        omega
      have hbackIdle := fun h => update_back s.issueIdle msg.vcIndex (hidle h)
      have hbackMsgs := update_back s.terminalMsgs msg.vcIndex hmsgs.symm
      by_cases hmore : GoesOn p s msg.vcIndex rest <;>
        by_cases hi : s.issueIdle msg.vcIndex = 0 <;>
        by_cases hlocal : c.HasLocal p <;>
        simp [terminalRcEventHandler, sendChunk, packetSendRc, htype, hmore, hi, hlocal, hback,
          hbackIdle, hbackMsgs]

theorem credit_undone (htype : msg.type = .tBuffer) :
    terminalRcEventHandler p (terminalBufUpdate p env n s msg) = some s := by
  have hback := fun h : s.Resumes msg.vcIndex =>
    update_back s.inSendLoop msg.vcIndex h.1.symm
  by_cases hfull : 0 < s.lastBufFull msg.vcIndex <;>
    by_cases hstart : s.Resumes msg.vcIndex <;>
    simp [terminalRcEventHandler, terminalBufUpdate, terminalBufUpdateRc, htype, hfull, hstart,
      hback]

theorem dropChunk_new (hnew : s.rankTbl msg.key = none) (s' : Terminal) :
    dropChunk s' msg.key (arrivedEntry s msg) =
      { s' with
        rankTbl := update s'.rankTbl msg.key none
        rankTblPop := s'.rankTblPop - 1 } := by
  simp [dropChunk, arrivedEntry, hnew, HashEntry.add, HashEntry.empty]

theorem dropChunk_old (hready : TermReady s msg) {e : HashEntry} (he : s.rankTbl msg.key = some e)
    (s' : Terminal) : dropChunk s' msg.key (arrivedEntry s msg) =
      { s' with rankTbl := update s'.rankTbl msg.key (some (e.withPayload msg.remoteEvent)) } := by
  have hpos := hready.table.pos _ e he
  have hne : e.numChunks ≠ 0 := by omega
  simp [dropChunk, arrivedEntry, he, HashEntry.add, HashEntry.withPayload, hne]

theorem TableOk.one_le_pop (h : TableOk s) {key : RankKey} (hkey : s.rankTbl key ≠ none) :
    1 ≤ s.rankTblPop := by
  obtain ⟨l, -, hmem, hlen⟩ := h.keys
  rw [← hlen]
  exact List.length_pos_of_mem ((hmem key).2 hkey)

/-- The terminal after the arrival of a chunk was undone: the latency of an answer and the payload
of an older entry are not what they were. -/
def arriveUndone (p : Param) (now : STime) (s : Terminal) (msg : Msg) (i : ℕ) : Terminal :=
  { s with
    stats := update s.stats i { MnStats.received p now msg (s.stats i) with
      category := msg.category
      recvTime := (s.stats i).recvTime
      recvCount := (MnStats.received p now msg (s.stats i)).recvCount - if msg.IsLast p
        then 1 else 0
      recvBytes := (MnStats.received p now msg (s.stats i)).recvBytes -
        if msg.IsLast p then msg.packetSize else 0 }
    latDraws := s.latDraws + if Answers p s msg then 1 else 0
    rankTbl := update s.rankTbl msg.key
      ((s.rankTbl msg.key).map fun e => e.withPayload msg.remoteEvent) }

theorem packetArriveRc_eq {i : ℕ} (hready : TermReady s msg)
    (htype : msg.type = .tArrive) (hfind : findStats s.stats msg.category = some i)
    (h : packetArrive p env n t s msg = some r) :
    terminalRcEventHandler p r = some (arriveUndone p env.now s msg i) := by
  simp only [packetArrive, Option.ite_none_left_eq_some, Option.bind_eq_some_iff,
    Option.map_eq_some_iff] at h
  obtain ⟨hfull, i₁, hfind₁, stats, hstats, rfl⟩ := h
  obtain ⟨i₂, hfind₂, rfl⟩ := updateStats_eq_some.1 hstats
  obtain rfl : i = i₁ := Option.some.inj (hfind.symm.trans hfind₁)
  obtain rfl : i = i₂ := Option.some.inj (hfind.symm.trans hfind₂)
  have hlt := hready.table.pop_lt
  have hdelivers : ¬ Completes p s msg → ¬ Delivers p s msg := fun h hd => h hd.1
  cases he : s.rankTbl msg.key with
  | none =>
    have hpop : popWith s msg = s.rankTblPop + 1 := by simp [popWith, he]
    have hroom : ¬ hashTableSize ≤ s.rankTblPop + 1 := by
      rw [← hpop]
      exact fun h => hfull ⟨he, h⟩
    have hdrop := dropChunk_new he
    by_cases hdone : Completes p s msg <;>
      by_cases hd : Delivers p s msg <;>
      by_cases hlast : msg.IsLast p <;>
      simp_all [terminalRcEventHandler, packetArriveRc, arriveUndone, Terminal.countArrival,
        updateStats, findStats_update hfind, Msg.key]
  | some e =>
    have hpop : popWith s msg = s.rankTblPop := by simp [popWith, he]
    have hpos : s.rankTblPop - 1 + 1 = s.rankTblPop := by
      have := hready.table.one_le_pop (by simp [he] : s.rankTbl msg.key ≠ none)
      omega
    have hdrop := dropChunk_old hready he
    by_cases hdone : Completes p s msg <;>
      by_cases hd : Delivers p s msg <;>
      by_cases hlast : msg.IsLast p <;>
      simp_all [terminalRcEventHandler, packetArriveRc, arriveUndone, Terminal.countArrival,
        updateStats, findStats_update hfind, Msg.key]

theorem restored_arriveUndone (now : STime) (htype : msg.type = .tArrive) (i : ℕ) :
    Restored s (arriveUndone p now s msg i) ↔ UndoableTerminal p s msg := by
  have hstats : ∀ j, MnStats.figures ((arriveUndone p now s msg i).stats j) =
      MnStats.figures (s.stats j) := by
    refine (agree_update MnStats.figures s.stats i).2 ?_
    simp [MnStats.figures, MnStats.counts, MnStats.received]
  simp only [UndoableTerminal, htype]
  constructor
  · intro hr
    have hlat : s.latDraws + (if Answers p s msg then 1 else 0) = s.latDraws :=
      congrArg Terminal.latDraws hr.rest
    have htbl : update s.rankTbl msg.key
        ((s.rankTbl msg.key).map fun e => e.withPayload msg.remoteEvent) = s.rankTbl :=
      congrArg Terminal.rankTbl hr.rest
    exact ⟨fun ha => by simp [ha] at hlat,
      HashEntry.map_withPayload_iff.1 (update_eq_self_iff.1 htbl)⟩
  · rintro ⟨ha, hpayload⟩
    have htbl := update_back s.rankTbl msg.key (HashEntry.map_withPayload_iff.2 hpayload)
    exact ⟨by simp [arriveUndone, ha, htbl], hstats⟩

/-- **One event of a terminal.** -/
theorem terminalRcEventHandler_iff (hready : TermReady s msg)
    (h : terminalEvent p env n t s msg = some r) :
    ∃ s', terminalRcEventHandler p r = some s' ∧ (Restored s s' ↔ UndoableTerminal p s msg) := by
  have hsame : terminalRcEventHandler p r = some s → UndoableTerminal p s msg →
      ∃ s', terminalRcEventHandler p r = some s' ∧ (Restored s s' ↔ UndoableTerminal p s msg) :=
    fun hs hu => ⟨s, hs, fun _ => hu, fun _ => .refl s⟩
  unfold terminalEvent at h
  split at h
  · exact generate_undone hready ‹_› h
  · rename_i htype
    obtain ⟨i, hfind⟩ : ∃ i, findStats s.stats msg.category = some i := by
      simp only [packetArrive, Option.ite_none_left_eq_some, Option.bind_eq_some_iff] at h
      obtain ⟨-, i, hi, -⟩ := h
      exact ⟨i, hi⟩
    exact ⟨_, packetArriveRc_eq hready htype hfind h, restored_arriveUndone env.now htype i⟩
  · rename_i htype
    obtain rfl := Option.some.inj h
    exact hsame (send_undone hready htype) (by simp [UndoableTerminal, htype])
  · rename_i htype
    obtain rfl := Option.some.inj h
    exact hsame (credit_undone htype) (by simp [UndoableTerminal, htype])
  · cases h

/-! ### The switch -/

section

variable {conf : SwitchConf} {s : Switch}

theorem getOutputPort_draws {port : ℕ} {draws : ℤ}
    (h : getOutputPort p env conf s msg = some (port, draws)) :
    draws = if p.routing = .static ∨ conf.Attached (destTermLocalId p msg) then 0 else 1 := by
  unfold getOutputPort at h
  by_cases hstatic : p.routing = .static
  · simp only [hstatic, if_true, Option.ite_none_right_eq_some, Option.some.injEq,
      Prod.mk.injEq] at h
    simp [hstatic, h.2.2]
  · by_cases hatt : conf.Attached (destTermLocalId p msg)
    · simp only [hstatic, hatt, if_true, if_false, Option.some.injEq, Prod.mk.injEq] at h
      simp [hatt, h.2]
    · simp only [hstatic, hatt, if_false, Option.ite_none_right_eq_some,
        Option.ite_none_left_eq_some, Option.some.injEq, Prod.mk.injEq] at h
      simp [hstatic, hatt, h.2.2.2]

/-- What the reverse handler makes of the position of the random stream after the routing. -/
theorem receive_undone (port : ℕ) (htype : msg.type = .sArrive) (rng : ℤ) (placed : Prop)
    [Decidable placed] : switchRcEventHandler p
      (if placed then receivePlaced p env n s msg port rng
        else receiveParked p env s msg port rng) =
      some { s with rngDraws := rng - if p.routing ≠ .static then 1 else 0 } := by
  have hback := update_back s.inSendLoop port (w := 0)
  by_cases hplaced : placed <;>
    by_cases hstatic : p.routing = .static <;>
    by_cases hstart : s.inSendLoop port = 0 <;>
    simp [switchRcEventHandler, switchPacketReceiveRc, receivePlaced, receiveParked, htype, hplaced,
      hstatic, hstart, hback, returnTails_singleton]

theorem switchSend_undone (htype : msg.type = .sSend) (hloop : s.inSendLoop msg.vcIndex = 1) :
    switchRcEventHandler p (switchPacketSend p env conf n s msg) = some s := by
  have hback := update_back s.inSendLoop msg.vcIndex hloop.symm
  unfold switchPacketSend
  split
  · simp [switchRcEventHandler, switchPacketSendRc, htype, hback]
  · rename_i c rest hmsgs
    have hbackMsgs := update_back s.pendingMsgs msg.vcIndex hmsgs.symm
    by_cases hodd : c.packetSize % p.chunkSize ≠ 0 ∧ c.chunkId = countedChunks p msg c - 1 <;>
      cases rest <;>
      simp [switchRcEventHandler, switchSendChunk, switchPacketSendRc, chunkBytes, htype, hodd,
        hback, hbackMsgs]

theorem switchCredit_undone (htype : msg.type = .sBuffer) :
    switchRcEventHandler p (switchBufUpdate p env n s msg) = some s := by
  have hback := update_back s.inSendLoop msg.vcIndex (w := 0)
  cases hq : s.queuedMsgs msg.vcIndex with
  | nil =>
    by_cases hfull : s.lastBufFull msg.vcIndex = 0 <;>
      by_cases hloop : s.inSendLoop msg.vcIndex = 0 <;>
      by_cases hpending : s.pendingMsgs msg.vcIndex = [] <;>
      simp [switchRcEventHandler, switchBufUpdate, switchBufUpdateRc, Switch.release,
        Switch.passOn, Switch.Resumes, htype, hq, hfull, hloop, hpending, hback]
  | cons c rest =>
    have hbackQueued := update_back s.queuedMsgs msg.vcIndex hq.symm
    by_cases hfull : s.lastBufFull msg.vcIndex = 0 <;>
      by_cases hloop : s.inSendLoop msg.vcIndex = 0 <;>
      simp [switchRcEventHandler, switchBufUpdate, switchBufUpdateRc, Switch.release,
        Switch.passOn, Switch.Resumes, htype, hq, hfull, hloop, hback, hbackQueued]

/-- **One event of a switch.** -/
theorem switchRcEventHandler_iff {r : Result Switch}
    (hsend : ∀ v, msg.IsSend v → s.inSendLoop v = 1) (h : switchEvent p env conf n s msg = some r) :
    ∃ s', switchRcEventHandler p r = some s' ∧ (s' = s ↔ UndoableSwitch p conf msg) := by
  have hsame : switchRcEventHandler p r = some s → msg.type ≠ .sArrive →
      ∃ s', switchRcEventHandler p r = some s' ∧ (s' = s ↔ UndoableSwitch p conf msg) :=
    fun hs htype => ⟨s, hs, fun _ h => absurd h htype, fun _ => rfl⟩
  unfold switchEvent at h
  split at h
  · rename_i htype
    obtain rfl := Option.some.inj h
    exact hsame (switchSend_undone htype (hsend _ ⟨.inr htype, rfl⟩)) (by simp [htype])
  · rename_i htype
    obtain ⟨⟨port, draws⟩, hport, h⟩ := Option.bind_eq_some_iff.1 h
    simp only [Option.ite_none_right_eq_some, Option.some.injEq] at h
    obtain ⟨-, rfl⟩ := h
    refine ⟨_, receive_undone port htype _ _, ?_⟩
    have hdraws := getOutputPort_draws hport
    have hrng : ∀ x : ℤ, { s with rngDraws := x } = s ↔ x = s.rngDraws := by
      intro x
      constructor
      · exact fun hx => congrArg Switch.rngDraws hx
      · rintro rfl
        rfl
    rw [hrng, hdraws]
    by_cases hstatic : p.routing = .static <;>
      by_cases hatt : conf.Attached (destTermLocalId p msg) <;>
      simp [UndoableSwitch, htype, hstatic, hatt]
  · rename_i htype
    obtain rfl := Option.some.inj h
    exact hsame (switchCredit_undone htype) (by simp [htype])
  · cases h

end

/-! ### Reachable states -/

/-- A tree whose switch 0 has level 0 and the terminals 0 and 1 below it. -/
def switchOfTwo : Tree where
  p := {
    ftType := 0
    numLevels := 3
    linkRepetitions := 1
    numTerminals := 16
    l0TermSize := 2
    l1TermSize := 4
    vcSize := 16
    cnVcSize := 16
    chunkSize := 8
    numRails := 1
    portsPerNic := 1
    routing := .adaptive
    railSelect := .dedicated
    railSizeLimit := 0
    linkBandwidth := 1
    cnDelay := 0
    headDelay := 0
    creditDelay := 0
    routerDelay := 0
    msgSz := 0 }
  topology := {
    conf _ := {
      switchLevel := 0
      radix := 4
      numCons := 4
      numLcons := 2
      conPerLneigh := 1
      conPerUneigh := 2
      startLneigh := 0
      endLneigh := 2
      portConnections := .terminal
      lft _ := 0 }
    switchLp _ _ := 0 }
  base _ := {
    conf := [⟨"GRP", 1, [⟨"nw-lp", none, 1⟩, ⟨"modelnet_fattree", none, 1⟩]⟩]
    gid := 1
    cnDelay := 0
    latency _ := 1
    isFreezingOn := false }
  nicsPerRouter := 1
  baseParams := ⟨⟨.fcfs, 0, .fcfs⟩, 8, 1, 0, 1⟩
  servers _ := none
  terminalOf _ := 1

/-- A message of one chunk for another terminal. -/
def oneChunkMsg : BaseMsg :=
  ⟨{ (default : Request) with destMnLp := 9, msgSize := 8 }, false, false, 0, ⟨-1⟩, default, false,
    fun _ => 0⟩

def surroundings : Around :=
  ⟨⟨0, 0, default, fun _ => 0, fun _ => 0, fun _ => 0, fun _ => 0⟩, 0, oneChunkMsg⟩

/-- Terminal 0 gets the message, cuts it into chunks and sends the only one to switch 0. -/
def towardsNeighbour : List (NetLabel LpName Event Around) :=
  [.inject (.terminal 0) (.newMsg oneChunkMsg) surroundings, .deliver 0 surroundings,
    .deliver 1 surroundings]

end CodesSim.FatTree
