import CodesSim.Synthetic.Steps

/-!
# Taking a generated event back

`gen_synthetic_tr_rc` takes back as many messages as `saved_syn_length` says.  That is the number of
destinations that were found, also where the timers kept the messages from being sent; and when the
event has finished the rank, `finish_bckgnd_traffic` has written its time over it.

* `genSyntheticTr_undone_iff` says which events are undone.
-/

namespace CodesSim.Synthetic

open CodesMapping Replay

variable {c : SynCtx}

/-! ### The reverse in one step -/

/-- A number of messages was taken back. -/
theorem undoSend_iterate (c : SynCtx) (eventRc : ℤ) (k : ℕ) (s : SynState) :
    (undoSend c eventRc)^[k] s =
      { s with
        latencies := s.latencies - k * max 0 eventRc
        numSynBytesSent := s.numSynBytesSent - bytes c k
        numBytesSent := s.numBytesSent - bytes c k
        sample := { s.sample with numBytesSent := s.sample.numBytesSent - bytes c k } } := by
  induction k generalizing s with
  | zero => simp
  | succ k ih =>
    rw [Function.iterate_succ_apply, ih]
    have hbytes : ∀ b : UInt64, b - UInt64.ofInt c.payloadSz - bytes c k = b - bytes c (k + 1) :=
      fun b => by rw [bytes_succ]; grind
    have hlat : s.latencies - max 0 eventRc - k * max 0 eventRc =
        s.latencies - (k + 1 : ℕ) * max 0 eventRc := by
      push_cast
      ring
    simp only [undoSend, hbytes, hlat]

/-- The counters are taken back. -/
def undoCounts (c : SynCtx) (m : SynMsg) (s : SynState) : SynState :=
  { s with
    genData := m.savedGenData
    latencies := s.latencies - m.savedSynLength.toNat * max 0 m.eventRc
    numSynBytesSent := s.numSynBytesSent - bytes c m.savedSynLength.toNat
    numBytesSent := s.numBytesSent - bytes c m.savedSynLength.toNat
    numSends := s.numSends - 1
    sample :=
      { numSends := s.sample.numSends - 1
        numBytesSent := s.sample.numBytesSent - bytes c m.savedSynLength.toNat } }

theorem genSyntheticTrRc_eq {bf : SynBf} (hbf : bf.c0 = false) (m : SynMsg) (s : SynState) :
    genSyntheticTrRc c bf m s =
      if bf.c5 then finishBckgndTrafficRc c m (undoDestinations bf m (undoCounts c m s))
      else undoDestinations bf m (undoCounts c m s) := by
  obtain ⟨c0, c1, c2, c5, c7⟩ := bf
  obtain rfl : c0 = false := hbf
  unfold genSyntheticTrRc
  rw [if_neg Bool.false_ne_true]
  simp only [undoSend_iterate]
  cases c1 <;> cases c2 <;> cases c5 <;> cases c7 <;>
    simp [undoDestinations, undoCounts, finishBckgndTrafficRc]

/-- Counters are off by some bytes and latencies. -/
def SynState.off (b : UInt64) (latencies : ℤ) (s : SynState) : SynState :=
  { s with
    latencies := s.latencies + latencies
    numSynBytesSent := s.numSynBytesSent + b
    numBytesSent := s.numBytesSent + b
    sample := { s.sample with numBytesSent := s.sample.numBytesSent + b } }

variable {s : SynState}

theorem SynState.off_eq_self_iff {b : UInt64} {latencies : ℤ} :
    s.off b latencies = s ↔ b = 0 ∧ latencies = 0 := by
  constructor
  · intro h
    have hb := congrArg SynState.numBytesSent h
    have hl := congrArg SynState.latencies h
    simp only [SynState.off] at hb hl
    exact ⟨by grind, by omega⟩
  · rintro ⟨rfl, rfl⟩
    simp [SynState.off]

variable {m : SynMsg}

/-- **What the reverse misses** is the difference between the messages sent and those taken back. -/
theorem undoCounts_sent (bf : SynBf) (hgen : m.savedGenData = s.genData) (k : ℕ) :
    undoDestinations bf m (undoCounts c m (s.sent c k).counted) =
      (undoDestinations bf m s).off (bytes c k - bytes c m.savedSynLength.toNat)
        (k - m.savedSynLength.toNat * max 0 m.eventRc) := by
  have hbytes : ∀ b : UInt64, b + bytes c k - bytes c m.savedSynLength.toNat =
      b + (bytes c k - bytes c m.savedSynLength.toNat) := fun b => by grind
  have hone : ∀ b : UInt64, b + 1 - 1 = b := fun b => by grind
  simp only [undoDestinations, undoCounts, SynState.sent, SynState.counted, SynState.off, hgen,
    hbytes, hone, add_sub_assoc]

/-! ### Which events are undone -/

/-- The event is one that is undone: the rank has finished before, or it sends and stays below the
limit, or the timers keep it from sending and there would be nothing to take back. -/
def GenUndone (c : SynCtx) (n : ℤ) (s : SynState) (m : SynMsg) : Prop :=
  s.isFinished = true ∨
    if betweenTimers c s.appId then c.payloadSz = 0 ∧ m.eventRc ≤ 0
    else ¬(c.maxGenData ≠ 0 ∧ s.genData + bytes c (s.syntheticPattern.fanout n) ≥ c.maxGenData)

theorem undo_live {n : ℤ} {destSvr : List ℤ} {e₁ : GenEv}
    (hn : 2 ≤ n) (hn' : n < 2 ^ 31) (hlength : destSvr.length = s.syntheticPattern.fanout n)
    (hfound : Found (.start s m) e₁) (outs : List SynOut)
    (hlimit : ¬AtLimit c (sentEv c destSvr e₁ outs).s) :
    genSyntheticTrRc c (afterSends c (sentEv c destSvr e₁ outs)).bf
        (afterSends c (sentEv c destSvr e₁ outs)).m (afterSends c (sentEv c destSvr e₁ outs)).s =
        s ↔
      (betweenTimers c s.appId = true → c.payloadSz = 0 ∧ m.eventRc ≤ 0) := by
  obtain ⟨hs, hm, hbf⟩ := afterSends_of_not hlimit
  have hbits : (sentEv c destSvr e₁ outs).bf = e₁.bf := rfl
  rw [hs, hm, hbf, genSyntheticTrRc_eq (hbits ▸ hfound.live.1), if_neg (by
    rw [hbits, hfound.live.2]; exact Bool.false_ne_true)]
  have hstate : (sentEv c destSvr e₁ outs).s = e₁.s.sent c (destsOf c destSvr e₁).length := rfl
  have hundone : undoDestinations (sentEv c destSvr e₁ outs).bf (sentEv c destSvr e₁ outs).m e₁.s =
      s := hfound.undone
  rw [hstate, undoCounts_sent _ rfl, hundone, SynState.off_eq_self_iff]
  have hlen : (sentEv c destSvr e₁ outs).m.savedSynLength.toNat = destSvr.length :=
    Int.toNat_natCast _
  have hpos := Traffic.fanout_bounds hn hn' s.syntheticPattern
  rw [← hlength] at hpos
  obtain ⟨draws, prevSwitch, savedPermDest, hframe⟩ := hfound.frame
  have happ : e₁.s.appId = s.appId := by rw [hframe]; rfl
  rw [hlen]
  cases htimers : betweenTimers c s.appId with
  | false =>
    have hdests : destsOf c destSvr e₁ = destSvr := by
      rw [destsOf, happ, htimers, if_neg Bool.false_ne_true]
    have hne : destSvr ≠ [] := List.ne_nil_of_length_pos hpos.1
    have hrc : (sentEv c destSvr e₁ outs).m.eventRc = 1 := by
      rw [sentEv, hdests]
      exact if_neg hne
    rw [hrc, hdests]
    refine iff_of_true ⟨by grind, by simp⟩ fun h => (by cases h)
  | true =>
    have hdests : destsOf c destSvr e₁ = [] := by rw [destsOf, happ, htimers, if_pos rfl]
    have hrc : (sentEv c destSvr e₁ outs).m.eventRc = m.eventRc := by
      rw [sentEv, hdests]
      exact hfound.eventRc
    have hbytes : (0 : UInt64) - bytes c destSvr.length = 0 ↔ c.payloadSz = 0 := by
      rw [← bytes_eq_zero_iff hpos.1 hpos.2]
      constructor <;> intro h <;> grind
    have hlat : ((0 : ℕ) : ℤ) - destSvr.length * max 0 m.eventRc = 0 ↔ m.eventRc ≤ 0 := by
      rw [Nat.cast_zero, zero_sub, neg_eq_zero, mul_eq_zero]
      omega
    rw [hrc, hdests, List.length_nil, bytes_zero, hbytes, hlat]
    exact ⟨fun h _ => h, fun h => h rfl⟩

/-- The time of a rank that finishes is zero, and so is then the number of messages to take back:
the bytes that were sent last stay counted. -/
theorem undo_atLimit {destSvr : List ℤ} {e₁ : GenEv}
    (hfound : Found (.start s m) e₁) (helapsed : s.elapsedTime = 0)
    (hbelow : c.maxGenData = 0 ∨ s.genData < c.maxGenData) (outs : List SynOut)
    (hlimit : AtLimit c (sentEv c destSvr e₁ outs).s) :
    genSyntheticTrRc c (afterSends c (sentEv c destSvr e₁ outs)).bf
      (afterSends c (sentEv c destSvr e₁ outs)).m
      (afterSends c (sentEv c destSvr e₁ outs)).s ≠ s := by
  intro h
  obtain ⟨hs, hm, hbf⟩ := afterSends_of_atLimit hlimit
  have hlive : (afterSends c (sentEv c destSvr e₁ outs)).bf.c0 = false := by
    rw [hbf]
    exact hfound.live.1
  have hfin : (afterSends c (sentEv c destSvr e₁ outs)).bf.c5 = true := by rw [hbf]
  obtain ⟨draws, prevSwitch, savedPermDest, hframe⟩ := hfound.frame
  have htime : (sentEv c destSvr e₁ outs).s.elapsedTime = 0 := by
    rw [sentEv, hframe]
    exact helapsed
  have hwords : (afterSends c (sentEv c destSvr e₁ outs)).m.savedSynLength.toNat = 0 := by
    rw [hm, htime, SynMsg.savedSynLength, SynMsg.setElapsedTime, c.layout.toInts_zero]
    rfl
  have hcount := congrArg SynState.numBytesSent h
  rw [genSyntheticTrRc_eq hlive, if_pos hfin, finishBckgndTrafficRc, undoDestinations, undoCounts,
    hwords, hs] at hcount
  obtain ⟨hmax, hreach⟩ := hlimit
  simp only [sentEv, hframe, SynState.counted, SynState.sent, GenEv.start, bytes_zero]
    at hcount hreach
  have hnone : bytes c (destsOf c destSvr e₁).length = 0 := by grind
  rw [hnone, UInt64.add_zero] at hreach
  exact UInt64.not_lt.2 hreach (hbelow.resolve_left hmax)

/-- **Which generated events are undone.**  In every reachable state, the reverse of a
`CLI_BCKGND_GEN` restores the rank, the global count and the numbers drawn exactly if the rank has
finished before, or sends and does not reach the limit, or is kept from sending by the timers and
there is nothing to take back. -/
theorem genSyntheticTr_undone_iff (c : SynCtx) (nwId : ℤ) (pattern : Traffic) (qosLevel : ℤ)
    (hjob : c.jobmap.toLocalId nwId ≠ .invalid) {n : ℤ}
    (hn : c.jobmap.getNumRanks (c.jobmap.toLocalId nwId).job = n) (hn2 : 2 ≤ n) (hint : n < 2 ^ 31)
    (pre : List SynLabel) {s : SynState}
    (hs : (synMachine c).run (.init c nwId pattern qosLevel) pre = some s) (now : STime)
      (m : SynMsg)
    {e : GenEv} (he : genSyntheticTr (c.at now) (.start s m) = .ok e) :
    genSyntheticTrRc (c.at now) e.bf e.m e.s = s ↔ GenUndone (c.at now) n s m := by
  have hreached := (SynState.reached_init c nwId pattern qosLevel).run hs
  cases hfin : s.isFinished with
  | true =>
    rw [genSyntheticTr, show (GenEv.start s m).s.isFinished = true from hfin, if_pos rfl] at he
    obtain rfl := Except.ok.inj he
    exact iff_of_true rfl (.inl hfin)
  | false =>
    obtain ⟨destSvr, e₁, outs, hfind, rfl⟩ := genSyntheticTr_ok he hfin
    have hrank := c.jobmap.toLocalId_rank nwId hjob
    have hnum : (c.at now).jobmap.getNumRanks
        ((c.at now).jobmap.toLocalId (GenEv.start s m).s.nwId).job = n := by
      rw [show (GenEv.start s m).s.nwId = nwId from hreached.nwId]
      exact hn
    rw [hnum] at hfind
    have hlocal : s.localRank = (c.jobmap.toLocalId nwId).rank := hreached.localRank
    have hlength : destSvr.length = s.syntheticPattern.fanout n :=
      length_findDestinations (by rw [GenEv.start, hlocal]; exact hrank.2.1)
        (by rw [GenEv.start, hlocal, ← hn]; exact hrank.2.2) hfind
    have hfound := findDestinations_found rfl hfind
    obtain ⟨draws, prevSwitch, savedPermDest, hframe⟩ := hfound.frame
    have hgen : (sentEv (c.at now) destSvr e₁ outs).s.genData =
        s.genData + bytes (c.at now) (destsOf (c.at now) destSvr e₁).length := by
      rw [sentEv, hframe]
      rfl
    have hdests : destsOf (c.at now) destSvr e₁ =
        if betweenTimers (c.at now) s.appId then [] else destSvr := by
      rw [destsOf, hframe]
      rfl
    have hunfinished : ¬s.isFinished = true := by rw [hfin]; exact Bool.false_ne_true
    rw [GenUndone, or_iff_right hunfinished]
    by_cases hlimit : AtLimit (c.at now) (sentEv (c.at now) destSvr e₁ outs).s
    · refine iff_of_false (undo_atLimit (c := c.at now) hfound (hreached.elapsed hfin)
        (hreached.limit hfin) outs hlimit) ?_
      rw [AtLimit, hgen, hdests] at hlimit
      split_ifs at hlimit ⊢ with htimers
      · -- nothing was sent, and the rank was below the limit
        rw [List.length_nil, bytes_zero, UInt64.add_zero] at hlimit
        exact absurd ((hreached.limit hfin).resolve_left hlimit.1) (UInt64.not_lt.2 hlimit.2)
      · rw [hlength] at hlimit
        exact not_not.2 hlimit
    · rw [undo_live hn2 hint hlength hfound outs hlimit]
      rw [AtLimit, hgen, hdests] at hlimit
      split_ifs at hlimit ⊢ with htimers
      · exact ⟨fun h => h htimers, fun h _ => h⟩
      · rw [hlength] at hlimit
        exact iff_of_true (fun h => absurd h htimers) hlimit

/-- A job of two ranks that send each other a kilobyte at a time. -/
def twoRanks (maxGenData : UInt64) (timer1 timer2 : ℤ) : SynCtx where
  conf := [⟨"G", 1, [⟨"nw-lp", none, 2⟩]⟩]
  eagerThreshold := 8192
  enableMsgTracking := false
  prioritizeCollectives := false
  globalIdOfJobRank := none
  now := 0
  jobmap := .identity 2
  payloadSz := 1024
  payloadSz_lower := minInt_le_1024
  payloadSz_upper := le_maxInt_1024
  maxGenData := maxGenData
  permSwitchThresh := 8388608
  jobTimer1 _ := timer1
  jobTimer2 _ := timer2
  meanIntervalOfJob _ := 100000
  rng := ⟨fun _ low _ => low, fun _ _ _ _ => le_rfl, fun _ _ _ h => h⟩
  layout := fractionLayout

/-- A new event. -/
def newEvent : SynMsg := ⟨0, (0, 0), 0, 0⟩

theorem genSyntheticTr_undone_iff_unlimited : ∃ e,
    genSyntheticTr ((twoRanks 0 0 0).at 15)
    (.start (.init (twoRanks 0 0 0) 0 .uniform 0) newEvent) =
        .ok e ∧
      genSyntheticTrRc ((twoRanks 0 0 0).at 15) e.bf e.m e.s = .init (twoRanks 0 0 0) 0
      .uniform 0 :=
  ⟨_, rfl, (genSyntheticTr_undone_iff (twoRanks 0 0 0) 0 .uniform 0 (by decide) rfl (by decide)
    (by decide) [] rfl 15 newEvent rfl).2 (.inr (by decide))⟩

/-- **Two events that are not undone.**  The first reaches the limit, and its bytes stay counted;
the second sends nothing between the timers, and bytes are taken back. -/
theorem bytes_stay_counted :
    (∃ e, genSyntheticTr ((twoRanks 1024 0 0).at 15)
          (.start (.init (twoRanks 1024 0 0) 0 .uniform 0) newEvent) = .ok e ∧
        (genSyntheticTrRc ((twoRanks 1024 0 0).at 15) e.bf e.m e.s).numBytesSent = 1024) ∧
      (∃ e, genSyntheticTr ((twoRanks 0 10 20).at 15)
          (.start (.init (twoRanks 0 10 20) 0 .uniform 0) newEvent) = .ok e ∧
        (genSyntheticTrRc ((twoRanks 0 10 20).at 15) e.bf e.m e.s).numBytesSent = -1024) ∧
      ∀ c, (SynState.init c 0 .uniform 0).numBytesSent = 0 :=
  ⟨⟨_, rfl, by decide +kernel⟩, ⟨_, rfl, by decide +kernel⟩, fun _ => rfl⟩

end CodesSim.Synthetic
