import CodesSim.Mesh.Network
import Mathlib.Algebra.Ring.Rat

/-!
# Rollback of an express mesh

The reverse handlers of a router undo the forward handlers, pointer for pointer.  Those of a
terminal do so with these exceptions (`UndoableTerminal`).

* The largest event of a category is not put back.
* A chunk that brings the payload of a message whose first chunks are already there leaves the
  payload in the table.
* A packet that finds the terminal waiting for room already, which the scheduler of one injection
  queue does not let happen, leaves it waiting no more.

`undone_iff` says that these are the only ones, in every reachable state.
-/

namespace CodesSim.Mesh

open Function
open Dll (Links Ends)

/-! ### Conditions -/

/-- `s'` is `s` again, except for the names of the categories. -/
structure Restored (s s' : Terminal) : Prop where
  rest : { s' with stats := s.stats } = s
  stats : ∀ i, (s'.stats i).figures = (s.stats i).figures

/-- The size of the event that a packet is handed over with. -/
def eventSize (p : Param) (msg : Msg) : ℤ :=
  p.msgSz + msg.remoteEvent.length + msg.localEvent.length

/-- **The condition** for the events of a terminal. -/
def UndoableTerminal (p : Param) (s : Terminal) (msg : Msg) : Prop :=
  match msg.type with
  | .tGenerate => (∀ i, findStats s.stats msg.category = some i →
      eventSize p msg ≤ (s.stats i).maxEventSize) ∧ (HasRoom p s msg ∨ s.issueIdle = 0)
  | .tArrive => ∀ e, s.rankTbl msg.key = some e → e.remoteEventData = [] → msg.remoteEvent = []
  | _ => True

/-! ### Lists and arrays -/

@[simp] theorem length_chunksOf (p : Param) (msg : Msg) :
    (chunksOf p msg).length = numChunks msg.packetSize p.chunkSize := by simp [chunksOf]

theorem Restored.refl (s : Terminal) : Restored s s := ⟨rfl, fun _ => rfl⟩

variable {p : Param} {env : Env} {n : ℕ} {msg : Msg}

/-! ### The terminal -/

section

variable {s : Terminal}

/-- The terminal after the generation of a packet was undone. -/
def generateUndone (p : Param) (s : Terminal) (msg : Msg) (i : ℕ) : Terminal :=
  { s with
    issueIdle := if HasRoom p s msg then s.issueIdle else 0
    stats := update s.stats i { MnStats.generated p msg (s.stats i) with
      category := msg.category
      sendCount := (MnStats.generated p msg (s.stats i)).sendCount - 1
      sendBytes := (MnStats.generated p msg (s.stats i)).sendBytes - msg.packetSize
      sendTime := (MnStats.generated p msg (s.stats i)).sendTime - p.cnDelay * msg.packetSize } }

theorem packetGenerateRc_eq {r : Result Terminal} {i : ℕ} (htype : msg.type = .tGenerate)
    (hfind : findStats s.stats msg.category = some i)
    (h : packetGenerate p env n s msg = some r) :
    terminalEventRc p r = some (generateUndone p s msg i) := by
  simp only [packetGenerate, Option.ite_none_left_eq_some, Option.map_eq_some_iff] at h
  obtain ⟨-, stats, hstats, rfl⟩ := h
  obtain ⟨i', hfind', rfl⟩ := updateStats_eq_some.1 hstats
  obtain rfl : i = i' := Option.some.inj (hfind.symm.trans hfind')
  have hchunks : ∀ l, returnTails (numChunks msg.packetSize p.chunkSize)
      (l ++ chunksOf p (generatedMsg msg)) = some l := by
    intro l
    have := returnTails_append l (chunksOf p (generatedMsg msg))
    rwa [length_chunksOf] at this
  have hlength : lengthAfter p s msg - numChunks msg.packetSize p.chunkSize * p.chunkSize =
      s.terminalLength := by simp [lengthAfter]
  by_cases hroom : HasRoom p s msg <;> by_cases hstart : s.inSendLoop = 0 <;>
    simp [terminalEventRc, packetGenerateRc, generateUndone, htype, hroom, hstart, hchunks, hlength,
      updateStats, findStats_update hfind]

theorem restored_generateUndone {i : ℕ} (htype : msg.type = .tGenerate)
    (hfind : findStats s.stats msg.category = some i) :
    Restored s (generateUndone p s msg i) ↔ UndoableTerminal p s msg := by
  have hfigures : (∀ j, MnStats.figures ((generateUndone p s msg i).stats j) =
      MnStats.figures (s.stats j)) ↔ eventSize p msg ≤ (s.stats i).maxEventSize := by
    refine (agree_update MnStats.figures s.stats i).trans ?_
    rw [← not_lt, eventSize]
    by_cases hlt : (s.stats i).maxEventSize <
        p.msgSz + msg.remoteEvent.length + msg.localEvent.length
    · simp [MnStats.figures, MnStats.counts, MnStats.generated, hlt, hlt.ne']
    · have htime : (s.stats i).sendTime + p.cnDelay * msg.packetSize - p.cnDelay * msg.packetSize =
          (s.stats i).sendTime := add_sub_cancel_right _ _
      simp [MnStats.figures, MnStats.counts, MnStats.generated, hlt, htime]
  have hidle : { generateUndone p s msg i with stats := s.stats } = s ↔
      (HasRoom p s msg ∨ s.issueIdle = 0) := by
    constructor
    · intro h
      have hsame : (if HasRoom p s msg then s.issueIdle else 0) = s.issueIdle :=
        congrArg Terminal.issueIdle h
      by_cases hroom : HasRoom p s msg
      · exact .inl hroom
      · rw [if_neg hroom] at hsame
        exact .inr hsame.symm
    · rintro (hroom | hzero)
      · simp [generateUndone, hroom]
      · simp [generateUndone, ← hzero]
  have hcond : UndoableTerminal p s msg ↔ eventSize p msg ≤ (s.stats i).maxEventSize ∧
      (HasRoom p s msg ∨ s.issueIdle = 0) := by
    simp [UndoableTerminal, htype, hfind]
  rw [hcond, ← hfigures, ← hidle]
  exact ⟨fun h => ⟨h.stats, h.rest⟩, fun h => ⟨h.2, h.1⟩⟩

theorem send_undone (hready : TermReady s msg) (htype : msg.type = .tSend) :
    terminalEventRc p (packetSend p env n s msg) = some s := by
  have hloop := hready.send htype
  have hstop : terminalEventRc p (stopSending env s msg) = some s := by
    simp [terminalEventRc, stopSending, packetSendRc, htype, ← hloop]
  simp only [packetSend]
  split
  · exact hstop
  · split
    · exact hstop
    · rename_i c rest hmsgs
      generalize env.pick s.rngDraws (s.sendVcs p) = vc at hmsgs ⊢
      have hidle : { s with issueIdle := if s.issueIdle = 0 then 0 else 1 } = s := by
        have hflag : (if s.issueIdle = 0 then 0 else 1) = s.issueIdle := by
          have := hready.idle_le
          split <;> omega
        rw [hflag]
      have hbackMsgs := update_back s.terminalMsgs vc hmsgs.symm
      by_cases hi : s.issueIdle = 0 <;> simp only [hi, if_true, if_false] at hidle <;>
        by_cases hfull : 0 < s.lastBufFull <;> by_cases hlocal : c.HasLocal p <;>
        simp [terminalEventRc, sendChunk, packetSendRc, htype, hi, hfull, hlocal, hbackMsgs, hidle]

theorem credit_undone (htype : msg.type = .tBuffer) :
    terminalEventRc p (terminalBufUpdate p env n s msg) = some s := by
  by_cases hstart : s.Resumes p
  · have hzero := hstart.1
    simp [terminalEventRc, terminalBufUpdate, terminalBufUpdateRc, htype, hstart, ← hzero]
  · simp [terminalEventRc, terminalBufUpdate, terminalBufUpdateRc, htype, hstart]

/-- The terminal after the arrival of a chunk was undone: the payload of an older entry is not what
it was. -/
def arriveUndone (p : Param) (now : STime) (s : Terminal) (msg : Msg) (i : ℕ) : Terminal :=
  { s with
    stats := update s.stats i { MnStats.received p now msg (s.stats i) with
      category := msg.category
      recvTime := (s.stats i).recvTime
      recvCount := (MnStats.received p now msg (s.stats i)).recvCount - if msg.IsLast p
        then 1 else 0
      recvBytes := (MnStats.received p now msg (s.stats i)).recvBytes -
        if msg.IsLast p then msg.packetSize else 0 }
    rankTbl := update s.rankTbl msg.key
      ((s.rankTbl msg.key).map fun e => e.withPayload msg.remoteEvent) }

theorem dropChunk_arrivedEntry (s' : Terminal) {bf : Bf}
    (hbf : bf.c5 = decide (s.rankTbl msg.key = none)) :
    dropChunk s' bf msg.key (arrivedEntry s msg) =
      { s' with
        rankTbl := update s'.rankTbl msg.key
          ((s.rankTbl msg.key).map fun e => e.withPayload msg.remoteEvent) } := by
  cases he : s.rankTbl msg.key with
  | none => simp [dropChunk, hbf, he]
  | some e => simp [dropChunk, hbf, he, arrivedEntry, HashEntry.add, HashEntry.withPayload]

theorem packetArriveRc_eq {r : Result Terminal} {i : ℕ} (htype : msg.type = .tArrive)
    (hfind : findStats s.stats msg.category = some i)
    (h : packetArrive p env n s msg = some r) :
    terminalEventRc p r = some (arriveUndone p env.now s msg i) := by
  simp only [packetArrive, Option.ite_none_right_eq_some, Option.bind_eq_some_iff,
    Option.map_eq_some_iff] at h
  obtain ⟨-, i₁, hfind₁, stats, hstats, rfl⟩ := h
  obtain ⟨i₂, hfind₂, rfl⟩ := updateStats_eq_some.1 hstats
  obtain rfl : i = i₁ := Option.some.inj (hfind.symm.trans hfind₁)
  obtain rfl : i = i₂ := Option.some.inj (hfind.symm.trans hfind₂)
  have hdelivers : ¬ Completes p s msg → ¬ Delivers p s msg := fun h hd => h hd.1
  have hanswers : ¬ Delivers p s msg → ¬ Answers p s msg := fun h ha => h ha.1
  have hdrop := fun s' => @dropChunk_arrivedEntry msg s s'
  by_cases hdone : Completes p s msg <;> by_cases hd : Delivers p s msg <;>
    by_cases ha : Answers p s msg <;> by_cases hlast : msg.IsLast p <;>
    simp_all [terminalEventRc, packetArriveRc, arriveUndone, Terminal.countArrival, updateStats,
      findStats_update hfind, Msg.key]

theorem restored_arriveUndone (now : STime) (htype : msg.type = .tArrive) (i : ℕ) :
    Restored s (arriveUndone p now s msg i) ↔ UndoableTerminal p s msg := by
  have hstats : ∀ j, MnStats.figures ((arriveUndone p now s msg i).stats j) =
      MnStats.figures (s.stats j) := by
    refine (agree_update MnStats.figures s.stats i).2 ?_
    simp [MnStats.figures, MnStats.counts, MnStats.received]
  simp only [UndoableTerminal, htype]
  constructor
  · intro hr
    have htbl : update s.rankTbl msg.key
        ((s.rankTbl msg.key).map fun e => e.withPayload msg.remoteEvent) = s.rankTbl :=
      congrArg Terminal.rankTbl hr.rest
    exact HashEntry.map_withPayload_iff.1 (update_eq_self_iff.1 htbl)
  · intro hpayload
    have htbl := update_back s.rankTbl msg.key (HashEntry.map_withPayload_iff.2 hpayload)
    exact ⟨by simp [arriveUndone, htbl], hstats⟩

/-- **One event of a terminal.** -/
theorem terminalEventRc_iff {r : Result Terminal} (hready : TermReady s msg)
    (h : terminalEvent p env n s msg = some r) :
    ∃ s', terminalEventRc p r = some s' ∧ (Restored s s' ↔ UndoableTerminal p s msg) := by
  have hsame : terminalEventRc p r = some s → UndoableTerminal p s msg →
      ∃ s', terminalEventRc p r = some s' ∧ (Restored s s' ↔ UndoableTerminal p s msg) :=
    fun hs hu => ⟨s, hs, fun _ => hu, fun _ => .refl s⟩
  unfold terminalEvent at h
  split at h
  · rename_i htype
    obtain ⟨i, hfind⟩ : ∃ i, findStats s.stats msg.category = some i := by
      simp only [packetGenerate, Option.ite_none_left_eq_some, Option.map_eq_some_iff] at h
      obtain ⟨-, stats, hstats, -⟩ := h
      obtain ⟨i, hi, -⟩ := updateStats_eq_some.1 hstats
      exact ⟨i, hi⟩
    exact ⟨_, packetGenerateRc_eq htype hfind h, restored_generateUndone htype hfind⟩
  · rename_i htype
    obtain ⟨i, hfind⟩ : ∃ i, findStats s.stats msg.category = some i := by
      simp only [packetArrive, Option.ite_none_right_eq_some, Option.bind_eq_some_iff] at h
      obtain ⟨-, i, hi, -⟩ := h
      exact ⟨i, hi⟩
    exact ⟨_, packetArriveRc_eq htype hfind h, restored_arriveUndone env.now htype i⟩
  · rename_i htype
    obtain rfl := Option.some.inj h
    exact hsame (send_undone hready htype) (by simp [UndoableTerminal, htype])
  · rename_i htype
    obtain rfl := Option.some.inj h
    exact hsame (credit_undone htype) (by simp [UndoableTerminal, htype])
  · cases h

end

/-! ### The router -/

section

variable {self : ℕ} {s : Router} {L : Lane → List ℕ} {stop : NextStop} {q : Lane} {a : ℕ}

variable {r : Result Router}

theorem receivePlaced_undone (h : s.Ok p L) (htype : msg.type = .rArrive)
    (unused : s.chunks env.fresh = none) (hr : receivePlaced p env self s msg stop = some r) :
    routerRcEventHandler p r = some s := by
  obtain ⟨x, -, heq, -, htail, -⟩ := (h.lists.setChunk env.fresh
    (some ⟨hopMsg msg, stop.port, stop.vc, false, 0⟩)).append (q := .pending stop.port stop.vc)
    trivial (fun q' _ => h.not_mem unused q') (h.unused _ unused (.pending 0 0)).1
    (h.unused _ unused (.pending 0 0)).2
  rw [receivePlaced, h.newChunk_eq unused, heq] at hr
  obtain rfl := Option.some.inj hr
  have hchunk := update_back s.chunks env.fresh unused.symm
  have hback : Dll.returnTail x.1 x.2 =
      some (env.fresh, s.links, s.pendingMsgs (stop.port, stop.vc)) := htail
  by_cases hloop : s.inSendLoop stop.port = 0
  · have hflag := update_back s.inSendLoop stop.port hloop.symm
    simp [routerRcEventHandler, routerPacketReceiveRc, htype, stopMsg, hloop, hflag, hback,
      Router.returnTail, Router.linksOf, Router.endsOf, Router.setList, Router.setChunk, hchunk]
  · simp [routerRcEventHandler, routerPacketReceiveRc, htype, stopMsg, hloop, hback,
      Router.returnTail, Router.linksOf, Router.endsOf, Router.setList, Router.setChunk, hchunk]

theorem update_back_two {α β : Type*} [DecidableEq α] (f : α → β) {k k' : α} (hk : k ≠ k')
    (v v' : β) : update (update (update (update f k v) k' v') k (f k)) k'
      (f k') = f := by
  funext x
  by_cases hx : x = k'
  · rw [hx, update_self]
  · by_cases hx' : x = k
    · rw [hx', update_of_ne hk, update_self]
    · simp [hx, hx']

theorem receiveParked_undone (h : s.Ok p L) (htype : msg.type = .rArrive)
    (valid : ¬ p.IsAlt stop.port stop.vc) (unused : s.chunks env.fresh = none)
    (dynamic : p.routing ≠ .static → stop.dstDim ≠ none → stop.vc ≠ 0)
    (hr : receiveParked p env self s msg stop = some r) :
    routerRcEventHandler p r = some s := by
  have hchunk := update_back s.chunks env.fresh unused.symm
  have hpark : ∀ alt, ∃ x : Links ℕ × Ends ℕ, ∃ s' : Router,
    parkChunk p env s msg stop alt = some s' ∧
      s' = { ((s.setChunk env.fresh (some (waitingChunk p msg stop alt))).setList x
          (.queued stop.port stop.vc)) with
        queuedCount := update s.queuedCount stop.port
          (s.queuedCount stop.port + p.chunkSize)
        lastBufFull := update s.lastBufFull stop.port env.now } ∧
      Dll.returnTail x.1 x.2 = some (env.fresh, s.links, s.queuedMsgs (stop.port, stop.vc)) ∧
      s'.Lists p (update L (.queued stop.port stop.vc)
        (L (.queued stop.port stop.vc) ++ [env.fresh])) := by
    intro alt
    obtain ⟨x, -, heq, hlists, htail, -⟩ := (h.lists.setChunk env.fresh
      (some (waitingChunk p msg stop alt))).append (q := .queued stop.port stop.vc) valid
      (fun q' _ => h.not_mem unused q') (h.unused _ unused (.pending 0 0)).1
      (h.unused _ unused (.pending 0 0)).2
    refine ⟨x, _, ?_, rfl, htail, hlists.congr rfl rfl rfl rfl⟩
    rw [parkChunk, h.newChunk_eq unused, heq]
    rfl
  unfold receiveParked at hr
  split at hr
  · obtain ⟨x, s', heq, rfl, hback, -⟩ := hpark none
    rw [heq] at hr
    obtain rfl := Option.some.inj hr
    simp [routerRcEventHandler, routerPacketReceiveRc, htype, stopMsg, parkedMsg, hback,
      Router.returnTail, Router.linksOf, Router.endsOf, Router.setList, Router.setChunk, hchunk]
  · rename_i hadaptive
    rw [not_or] at hadaptive
    obtain ⟨port, -, hr⟩ := Option.bind_eq_some_iff.1 hr
    obtain ⟨x, s', heq, hs', hback, hlists⟩ := hpark (some port)
    rw [heq, Option.bind_some] at hr
    simp only [Option.ite_none_left_eq_some] at hr
    obtain ⟨hport, hr⟩ := hr
    have hkey : (stop.port, stop.vc) ≠ (port, 0) :=
      fun hk => dynamic hadaptive.1 hadaptive.2 (Prod.mk.inj hk).2
    have hunused := h.unused _ unused (.alt port)
    obtain ⟨y, -, happ, -, htail, -⟩ := hlists.append (q := .alt port) (a := env.fresh)
      ⟨hadaptive.1, rfl, Nat.not_lt.1 hport⟩ (fun q' hq' => by
        rw [update_of_ne (by rintro rfl; cases hq')]
        exact h.not_mem unused q') (by rw [hs']; exact hunused.1) (by rw [hs']; exact hunused.2)
    have hback' : Dll.returnTail y.1 y.2 =
      some (env.fresh, s.altLinks, s.queuedMsgs (port, 0)) := by
      rw [htail, hs']
      simp [Router.linksOf, Router.endsOf, Router.setList, Router.setChunk, Ne.symm hkey]
    -- the chunk leaves both lists again
    have htwo := update_back_two s.queuedMsgs hkey x.2 y.2
    rw [happ] at hr
    obtain rfl := Option.some.inj hr
    subst hs'
    by_cases hstart : s.HasEscape p port ∧ s.inSendLoop port = 0
    · have hflag := update_back s.inSendLoop port hstart.2.symm
      simp [routerRcEventHandler, routerPacketReceiveRc, htype, stopMsg, parkedMsg, hstart, hback,
        hback', Router.returnTail, Router.linksOf, Router.endsOf, Router.setList, Router.setChunk,
        hchunk, waitingChunk, Ne.symm hkey, hkey, htwo, hflag]
    · simp [routerRcEventHandler, routerPacketReceiveRc, htype, stopMsg, parkedMsg, hstart, hback,
        hback', Router.returnTail, Router.linksOf, Router.endsOf, Router.setList, Router.setChunk,
        hchunk, waitingChunk, Ne.symm hkey, hkey, htwo]

variable {c : Chunk}

theorem putOnLink_undone {vc : ℕ} {bf : Bf} {outs : List Out}
    (htype : msg.type = .rSend) (hbf : bf.c1 = false) (hc : s.chunks a = some c)
    (hr : putOnLink p env self s msg a vc bf outs = some r) :
    routerRcEventHandler p r = some (takeBack p s bf { msg with outputChan := vc } a c) := by
  rw [putOnLink, hc, Option.bind_some] at hr
  obtain ⟨dest, -, rfl⟩ := Option.map_eq_some_iff.1 hr
  have hbytes : chunkBytes p c.msg (countedChunks p msg c.msg) =
      (if c.msg.packetSize % p.chunkSize ≠ 0 ∧ c.msg.chunkId = countedChunks p msg c.msg - 1 then
        c.msg.packetSize % p.chunkSize else p.chunkSize : ℕ) := rfl
  by_cases hodd : c.msg.packetSize % p.chunkSize ≠ 0 ∧
      c.msg.chunkId = countedChunks p msg c.msg - 1
  · simp [routerRcEventHandler, routerPacketSendRc, htype, hbf, hc, hodd, hbytes, usedMsg, takeBack]
  · simp [routerRcEventHandler, routerPacketSendRc, htype, hbf, hc, hodd, hbytes, usedMsg, takeBack]

theorem routerPacketSend_undone (h : s.Ok p L) (htype : msg.type = .rSend)
    (hloop : s.inSendLoop msg.vcIndex = 1) (hr : routerPacketSend p env self s msg = some r) :
    routerRcEventHandler p r = some s := by
  simp only [routerPacketSend] at hr
  split at hr
  · split at hr
    · rename_i hescapes
      obtain ⟨⟨a, c, s₂⟩, htake, hr⟩ := Option.bind_eq_some_iff.1 hr
      obtain ⟨l, hl, hc, hparked, -, hchunks, -⟩ := takeEscape_spec h hescapes htake
      have hfits : c.inAltQ = true ∧ c.altqPort = msg.vcIndex :=
        h.fits (q := .alt msg.vcIndex) (by simp [hl]) hc
      have hvalid : ¬ p.IsAlt c.port c.index := h.lists.valid_of_mem hparked
      have hescape : p.IsAlt msg.vcIndex 0 := ⟨hescapes.2.1, rfl, hescapes.1⟩
      have hkey : (msg.vcIndex, 0) ≠ (c.port, c.index) := by
        intro hk
        obtain ⟨h1, h2⟩ := Prod.mk.inj hk
        rw [← h1, ← h2] at hvalid
        exact hvalid hescape
      rw [putOnLink_undone (c := { c with inAltQ := false }) (by simpa using htype) rfl
        (by rw [hchunks, update_self]) hr]
      -- the chunk goes back to the alternate queue and then to the list it was parked in
      obtain ⟨x, hret, hlists, hpre, -⟩ := h.lists.returnHead hl
      rw [takeEscape, hret, Option.bind_some] at htake
      simp only [Router.chunks_setList, hc, Option.map_some, Option.some.injEq, Prod.mk.injEq,
        true_and] at htake
      obtain ⟨l₁, l₂, hl₁⟩ := List.append_of_mem hparked
      have hl₁' : update L (.alt msg.vcIndex) l (.queued c.port c.index) =
          l₁ ++ a :: l₂ := by
        rw [update_of_ne (by simp), hl₁]
      obtain ⟨y, -, hdel, -, hput, -⟩ :=
        (hlists.setChunk a (some { c with inAltQ := false })).delete hl₁'
      rw [hdel] at htake
      have hput' : Dll.putBack y.1 y.2 a = (s.links, s.queuedMsgs (c.port, c.index)) := by
        rw [hput]
        simp [Router.linksOf, Router.endsOf, Router.setList, Router.setChunk, Ne.symm hkey]
      have hpre' : Dll.prepend x.1 x.2 a = (s.altLinks, s.queuedMsgs (msg.vcIndex, 0)) := hpre
      have htwo := update_back_two s.queuedMsgs hkey x.2 y.2
      have hchunk : some { c with inAltQ := true } = s.chunks a := by rw [hc, ← hfits.1]
      have hback := update_back s.chunks a hchunk
      subst htake
      simp [takeBack, escapeMsg, Router.prepend, Router.putBack, Router.linksOf, Router.endsOf,
        Router.setList, Router.setChunk, hkey, Ne.symm hkey, hpre', hput', htwo, hback]
    · obtain rfl := Option.some.inj hr
      simp [routerRcEventHandler, routerPacketSendRc, htype, ← hloop]
  · rename_i hentries
    obtain ⟨-, l, hl⟩ := pick_entries env h hentries s.rngDraws
    generalize env.pick s.rngDraws (s.entries p msg.vcIndex) = entry at hl hr
    obtain ⟨c, hc, hfits⟩ := h.chunk (.pending msg.vcIndex entry.1) entry.2 (by simp [hl])
    obtain ⟨x, hret, -, hpre, -⟩ := h.lists.returnHead hl
    rw [hret, Option.bind_some] at hr
    rw [putOnLink_undone htype rfl (by rw [Router.chunks_setList, hc]) hr]
    have hpre' : Dll.prepend x.1 x.2 entry.2 = (s.links, s.pendingMsgs (msg.vcIndex, entry.1)) :=
      hpre
    have hchunk : { c with port := msg.vcIndex, index := entry.1 } = c := by
      obtain ⟨hport, hindex, -⟩ := hfits
      rw [← hport, ← hindex]
    have hback := update_back s.chunks entry.2 hc.symm
    simp [takeBack, Router.prepend, Router.linksOf, Router.endsOf, Router.setList, Router.setChunk,
      hchunk, hpre', hback]

/-- Two entries of an array are written back, the second one first. -/
theorem update_back_nested {α β : Type*} [DecidableEq α] (f : α → β) {k k' : α}
    (hk : k ≠ k') (v : β) : update (update (update f k v) k' (f k')) k (f k) = f := by
  rw [update_comm hk, update_idem, update_eq_self,
    update_eq_self]

theorem unpass_passTo (h : s.Ok p L) {port vc : ℕ} {l : List ℕ}
    (hl : L (.queued port vc) = a :: l) (hc : s.chunks a = some c) {s' t : Router} {bf : Bf}
    (hs' : passTo p s port vc a c = some s') (hbf : bf.c21 = c.inAltQ)
    (ht : t = { s' with
      latDraws := t.latDraws
      inSendLoop := t.inSendLoop
      vcOccupancy := t.vcOccupancy
      busyTime := t.busyTime
      busyTimeSample := t.busyTimeSample
      lastBufFull := t.lastBufFull }) :
    unpass p t bf port vc = some { s with
      latDraws := t.latDraws
      inSendLoop := t.inSendLoop
      vcOccupancy := update t.vcOccupancy (port, vc) (t.vcOccupancy (port, vc) - p.chunkSize)
      busyTime := t.busyTime
      busyTimeSample := t.busyTimeSample
      lastBufFull := t.lastBufFull } := by
  have hmem : a ∈ L (.queued port vc) := by simp [hl]
  have hfits : c.port = port ∧ c.index = vc := h.fits hmem hc
  obtain ⟨hport, hindex⟩ := hfits
  subst hport
  subst hindex
  obtain ⟨x, hret, hlists, hpre, hnext, hprev, -⟩ := h.lists.returnHead hl
  have hpre' : Dll.prepend x.1 x.2 a = (s.links, s.queuedMsgs (c.port, c.index)) := hpre
  rw [passTo, hret, Option.bind_some] at hs'
  dsimp only at hs'
  obtain ⟨hlists', hsame, -, -⟩ := Router.leaveAlt_spec h hl hc hlists
  obtain ⟨z, -, happ, -, htail, -⟩ :=
    (hlists'.setChunk a (some { c with inAltQ := false })).append (q := .pending c.port c.index)
      trivial (fun q' _ => h.lists.not_mem_takeOut a q') (by
        change ((s.setList x (.queued c.port c.index)).leaveAlt a c).links.next a = none
        rw [hsame]
        exact hnext) (by
        change ((s.setList x (.queued c.port c.index)).leaveAlt a c).links.prev a = none
        rw [hsame]
        exact hprev)
  rw [happ] at hs'
  obtain rfl := Option.some.inj hs'
  cases hin : c.inAltQ with
  | false =>
    have hleave : (s.setList x (.queued c.port c.index)).leaveAlt a c =
        s.setList x (.queued c.port c.index) := if_neg (by simp [hin])
    rw [hleave] at htail ht
    have htail' : Dll.returnTail z.1 z.2 = some (a, x.1, s.pendingMsgs (c.port, c.index)) := htail
    have hchunk : some { c with inAltQ := false } = s.chunks a := by rw [hc, ← hin]
    rw [ht]
    simp [unpass, hbf, hin, Router.returnTail, Router.prepend, Router.linksOf, Router.endsOf,
      Router.setList, Router.setChunk, htail', hpre']
    exact hchunk
  | true =>
    have haltMem := h.queuedAlt hmem hc hin
    have hkey : (c.port, c.index) ≠ (c.altqPort, 0) := by
      intro hk
      obtain ⟨h1, h2⟩ := Prod.mk.inj hk
      have hvalid : ¬ p.IsAlt c.port c.index := h.lists.valid_of_mem hmem
      have halt : p.IsAlt c.altqPort 0 := h.lists.valid_of_mem haltMem
      rw [h1, h2] at hvalid
      exact hvalid halt
    obtain ⟨l₁, l₂, hl₁⟩ := List.append_of_mem haltMem
    have hl₁' : update L (.queued c.port c.index) l (.alt c.altqPort) = l₁ ++ a :: l₂ := by
      rw [update_of_ne (by simp), hl₁]
    obtain ⟨y, -, hdel, -, hput, -⟩ := hlists.delete hl₁'
    have hput' : Dll.putBack y.1 y.2 a = (s.altLinks, s.queuedMsgs (c.altqPort, 0)) := by
      rw [hput]
      simp [Router.linksOf, Router.endsOf, Router.setList, Ne.symm hkey]
    have hleave : (s.setList x (.queued c.port c.index)).leaveAlt a c =
        (s.setList x (.queued c.port c.index)).setList y (.alt c.altqPort) := by
      rw [Router.leaveAlt, if_pos hin, hdel]
    rw [hleave] at htail ht
    have htail' : Dll.returnTail z.1 z.2 = some (a, x.1, s.pendingMsgs (c.port, c.index)) := htail
    have hnested := update_back_nested s.queuedMsgs hkey x.2
    have hchunk : some { c with inAltQ := true } = s.chunks a := by rw [hc, ← hin]
    rw [ht]
    simp [unpass, hbf, hin, Router.returnTail, Router.prepend, Router.putBack, Router.linksOf,
      Router.endsOf, Router.setList, Router.setChunk, htail', hpre', hput', hkey, hnested]
    exact hchunk

theorem passTo_times {port vc : ℕ} {s' : Router}
    (h : passTo p s port vc a c = some s') : s'.busyTime = s.busyTime ∧
      s'.busyTimeSample = s.busyTimeSample ∧ s'.lastBufFull = s.lastBufFull := by
  obtain ⟨x, hret, h⟩ := Option.bind_eq_some_iff.1 h
  obtain ⟨s₃, happ, rfl⟩ := Option.map_eq_some_iff.1 h
  obtain ⟨y, -, rfl⟩ := Option.map_eq_some_iff.1 happ
  obtain ⟨z, -, rfl⟩ := Option.map_eq_some_iff.1 hret
  cases hin : c.inAltQ <;>
    simp [Router.leaveAlt, Router.delete, Router.setList, Router.setChunk, hin]

theorem resume_fst (s : Router) (port vc : ℕ) : (s.resume p env self port vc).1 = { s with
    latDraws := s.latDraws + if s.Resumes p port vc then 1 else 0
    inSendLoop := if s.Resumes p port vc then update s.inSendLoop port 1
      else s.inSendLoop } := by
  by_cases hres : s.Resumes p port vc <;> simp [Router.resume, hres]

/-- A credit that was counted is not counted any more. -/
theorem unrelease (now : STime) (s : Router) (port vc : ℕ) {busy sample full : STime}
    (hbusy : s.lastBufFull port ≠ 0 → busy = s.busyTime port)
    (hsample : s.lastBufFull port ≠ 0 → sample = s.busyTimeSample port)
    (hfull : s.lastBufFull port ≠ 0 → full = s.lastBufFull port) :
    { s.release p now port vc with
      vcOccupancy := update (s.release p now port vc).vcOccupancy (port, vc)
        ((s.release p now port vc).vcOccupancy (port, vc) + p.chunkSize)
      busyTime := if s.lastBufFull port ≠ 0 then
        update (s.release p now port vc).busyTime port busy
        else (s.release p now port vc).busyTime
      busyTimeSample := if s.lastBufFull port ≠ 0 then
        update (s.release p now port vc).busyTimeSample port sample
        else (s.release p now port vc).busyTimeSample
      lastBufFull := if s.lastBufFull port ≠ 0 then
        update (s.release p now port vc).lastBufFull port full
        else (s.release p now port vc).lastBufFull } = s := by
  by_cases hzero : s.lastBufFull port = 0
  · simp [Router.release, hzero]
  · simp [Router.release, hzero, hbusy hzero, hsample hzero, hfull hzero]

theorem routerBufUpdate_undone (h : s.Ok p L) (htype : msg.type = .rBuffer)
    (hr : routerBufUpdate p env self s msg = some r) :
    routerRcEventHandler p r = some s := by
  have h₁ : (s.release p env.now msg.vcIndex msg.outputChan).Ok p L := h.congr rfl rfl rfl rfl rfl
  have hmsg : ∀ hfull : s.lastBufFull msg.vcIndex ≠ 0,
      (releasedMsg s msg).saved.rcvTime = s.busyTime msg.vcIndex ∧
      (releasedMsg s msg).saved.sampleTime = s.busyTimeSample msg.vcIndex ∧
      (releasedMsg s msg).saved.busyTime = s.lastBufFull msg.vcIndex := by
    intro hfull
    simp [releasedMsg, hfull]
  have hfields : (releasedMsg s msg).type = .rBuffer ∧
      (releasedMsg s msg).vcIndex = msg.vcIndex ∧
      (releasedMsg s msg).outputChan = msg.outputChan := by
    by_cases hfull : s.lastBufFull msg.vcIndex = 0 <;> simp [releasedMsg, hfull, htype]
  have hback := unrelease (p := p) env.now s msg.vcIndex msg.outputChan
    (fun hfull => (hmsg hfull).1) (fun hfull => (hmsg hfull).2.1) fun hfull => (hmsg hfull).2.2
  simp only [routerBufUpdate] at hr
  obtain ⟨head, hhead, hr⟩ := Option.bind_eq_some_iff.1 hr
  generalize hrel : s.release p env.now msg.vcIndex msg.outputChan = s₁ at h₁ hback hhead hr
  cases head with
  | none =>
    obtain rfl := Option.some.inj hr
    rw [resume_fst]
    simp only [routerRcEventHandler, routerBufUpdateRc, hfields]
    refine .trans ?_ (congrArg some hback)
    by_cases hres : s₁.Resumes p msg.vcIndex msg.outputChan
    · have hflag := update_back s₁.inSendLoop msg.vcIndex hres.1.symm
      simp [hres, hflag]
    · simp [hres]
  | some x =>
    obtain ⟨a, c⟩ := x
    obtain ⟨s₂, hs₂, rfl⟩ := Option.map_eq_some_iff.1 hr
    rw [← hrel] at hhead
    obtain ⟨-, l, hl, hc, -⟩ := (Router.passed_spec h hhead).2 a c rfl
    have hc₁ : s₁.chunks a = some c := by
      rw [← hrel]
      exact hc
    obtain ⟨-, -, hocc, -, hloop, hlat⟩ := passTo_spec h₁ hl hc₁ hs₂
    obtain ⟨hbusy, hsample, hfull⟩ := passTo_times hs₂
    rw [resume_fst]
    simp only [routerRcEventHandler, routerBufUpdateRc, hfields, if_true]
    rw [unpass_passTo h₁ hl hc₁ hs₂ rfl rfl, Option.map_some]
    refine .trans ?_ (congrArg some hback)
    by_cases hres : s₂.Resumes p msg.vcIndex msg.outputChan
    · have hzero : s₁.inSendLoop msg.vcIndex = 0 := by rw [← hloop, hres.1]
      have hflag := update_back s₁.inSendLoop msg.vcIndex hzero.symm
      simp [hres, hocc, hloop, hlat, hbusy, hsample, hfull, hflag]
    · simp [hres, hocc, hloop, hlat, hbusy, hsample, hfull]

/-- **One event of a router.** -/
theorem routerEvent_undone (h : s.Ok p L) (hloop : msg.type = .rSend → s.inSendLoop msg.vcIndex = 1)
    (hr : routerEvent p env self s msg = some r) : routerRcEventHandler p r = some s := by
  unfold routerEvent at hr
  split at hr
  · rename_i htype
    exact routerPacketSend_undone h htype (hloop htype) hr
  · rename_i htype
    simp only [routerPacketReceive, Option.bind_eq_some_iff, Option.ite_none_left_eq_some,
      Option.ite_none_right_eq_some] at hr
    obtain ⟨stop, next, hdynamic, hused, -, hr⟩ := hr
    have dynamic : p.routing ≠ .static → stop.dstDim ≠ none → stop.vc ≠ 0 :=
      fun h1 h2 h3 => hdynamic ⟨h1, h2, h3⟩
    have unused : s.chunks env.fresh = none := by simpa using hused
    split at hr
    · exact receivePlaced_undone h htype unused hr
    · exact receiveParked_undone h htype (not_isAlt_of_getNextStop next dynamic) unused dynamic hr
  · rename_i htype
    exact routerBufUpdate_undone h htype hr
  · cases hr

end

/-! ### Reachable states -/

/-- Two routers with a terminal each. -/
def twoInLine : Param where
  numCn := 1
  numVcs := 1
  vcSize := 16
  cnVcSize := 16
  chunkSize := 8
  routing := .static
  dimLength := [2]
  gap := 1
  cnDelay := 0
  linkDelay := 0
  creditDelay := 0
  routerDelay := 0
  msgSz := 4
  numCn_pos := Nat.one_pos
  chunkSize_pos := by decide
  gap_pos := Nat.one_pos
  length_pos := twoInLine_length_pos
  numVcs_pos := Nat.one_pos
  adaptive_vcs := oneVc_static

def someEnv : Env := ⟨0, 0, default, fun _ => 0, fun _ => 0, fun _ => 0, fun _ => 0, 0⟩

/-- A packet of one chunk from terminal 0 to terminal 1. -/
def packetOfEight : Msg :=
  { (default : Msg) with type := .tGenerate, packetSize := 8, destTerminal := 1 }

/-- Terminal 0 gets the packet and sends its chunk to router 0. -/
def firstEvents : List (NetLabel LpName Msg Env) :=
  [.inject (.terminal 0) packetOfEight someEnv, .deliver 0 someEnv]

end CodesSim.Mesh
