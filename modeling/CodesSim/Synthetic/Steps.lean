import CodesSim.Synthetic.Basic
import Mathlib.Algebra.Order.Ring.Abs

/-!
# Steps of the generator

What a `CLI_BCKGND_GEN` does to a rank: the choice of the destinations changes the numbers drawn and
what the permutation remembers (`Found`), the messages change the counters (`SynState.sent`), and
then the rank may finish (`genSyntheticTr_ok`).
-/

namespace CodesSim.Synthetic

open CodesMapping Replay

/-! ### Messages -/

/-- The bytes of a number of payloads. -/
def bytes (c : SynCtx) (k : ℕ) : UInt64 := UInt64.ofInt (k * c.payloadSz)

@[simp] theorem bytes_zero (c : SynCtx) : bytes c 0 = 0 := by
  rw [bytes, Nat.cast_zero, zero_mul]
  rfl

theorem bytes_succ (c : SynCtx) (k : ℕ) :
    bytes c (k + 1) = UInt64.ofInt c.payloadSz + bytes c k := by
  have hsum : ((k + 1 : ℕ) : ℤ) * c.payloadSz = c.payloadSz + k * c.payloadSz := by
    push_cast
    ring
  rw [bytes, hsum, UInt64.ofInt_add, bytes]

/-- **Payloads add up to nothing** only if they are empty: so few of them do not wrap around. -/
theorem bytes_eq_zero_iff {c : SynCtx} {k : ℕ} (hpos : 0 < k) (hk : k < 2 ^ 32) :
    bytes c k = 0 ↔ c.payloadSz = 0 := by
  refine ⟨fun h => ?_, fun h => by rw [bytes, h, mul_zero]; rfl⟩
  have hdvd : (2 ^ 64 : ℤ) ∣ k * c.payloadSz := by
    have hnat := congrArg UInt64.toNat h
    unfold bytes UInt64.ofInt at hnat
    rw [UInt64.toNat_ofNat', UInt64.toNat_zero] at hnat
    omega
  have hlow := c.payloadSz_lower
  have hupp := c.payloadSz_upper
  have habs : |(k : ℤ) * c.payloadSz| < 2 ^ 64 := by
    rw [abs_mul, Nat.abs_cast]
    have hsz : |c.payloadSz| ≤ 2 ^ 31 := abs_le.2 ⟨hlow, by omega⟩
    have hk' : (k : ℤ) ≤ 2 ^ 32 := by omega
    calc (k : ℤ) * |c.payloadSz| ≤ 2 ^ 32 * 2 ^ 31 :=
          mul_le_mul hk' hsz (abs_nonneg _) (by decide)
      _ < 2 ^ 64 := by decide
  have hzero := Int.eq_zero_of_abs_lt_dvd hdvd habs
  exact (mul_eq_zero.1 hzero).resolve_left (by omega)

/-- A number of messages was sent. -/
def SynState.sent (c : SynCtx) (k : ℕ) (s : SynState) : SynState :=
  { s with
    genData := s.genData + bytes c k
    numBytesSent := s.numBytesSent + bytes c k
    sample := { s.sample with numBytesSent := s.sample.numBytesSent + bytes c k }
    numSynBytesSent := s.numSynBytesSent + bytes c k
    latencies := s.latencies + k }

theorem SynState.sent_zero (c : SynCtx) (s : SynState) : s.sent c 0 = s := by
  simp [SynState.sent]

theorem SynState.sent_succ (c : SynCtx) (k : ℕ) (s : SynState) :
    SynState.sent c k ({ s with latencies := s.latencies + 1 }.addBytes c) = s.sent c (k + 1) := by
  have hcount : s.latencies + 1 + (k : ℤ) = s.latencies + (k + 1 : ℕ) := by
    push_cast
    ring
  simp only [SynState.sent, SynState.addBytes, bytes_succ, UInt64.add_assoc, hcount]

/-- One message: what it leaves in the state and in the event. -/
theorem sendTo_ok {c : SynCtx} {jid : JobmapId} {prio : String} {dest : ℤ} {e e' : GenEv}
    (h : sendTo c jid prio dest e = .ok e') :
    e'.s = { e.s with latencies := e.s.latencies + 1 }.addBytes c ∧ e'.bf = e.bf ∧
      e'.m = { e.m with eventRc := 1 } := by
  unfold sendTo at h
  cases hglobal : c.jobmap.toGlobalId ⟨jid.job, dest⟩ with
  | none => rw [hglobal] at h; cases h
  | some intmDestId =>
    cases hlpid : rankToLpid c.toReplayCtx intmDestId with
    | error text => simp only [hglobal, hlpid] at h; cases h
    | ok gid =>
      simp only [hglobal, hlpid] at h
      cases h
      exact ⟨rfl, rfl, rfl⟩

/-- **All messages**: each is counted, and the last one leaves its result. -/
theorem sendAll_ok {c : SynCtx} {jid : JobmapId} {prio : String} {dests : List ℤ} {e e' : GenEv}
    (h : sendAll c jid prio dests e = .ok e') :
    e'.s = e.s.sent c dests.length ∧ e'.bf = e.bf ∧
      e'.m = { e.m with eventRc := if dests = [] then e.m.eventRc else 1 } := by
  induction dests generalizing e with
  | nil =>
    cases h
    exact ⟨(SynState.sent_zero c _).symm, rfl, rfl⟩
  | cons dest dests ih =>
    unfold sendAll at h
    cases hone : sendTo c jid prio dest e with
    | error text => rw [hone] at h; cases h
    | ok e₁ =>
      rw [hone] at h
      obtain ⟨hs, hbf, hm⟩ := sendTo_ok hone
      obtain ⟨hs', hbf', hm'⟩ := ih h
      refine ⟨?_, hbf'.trans hbf, ?_⟩
      · rw [hs', hs, SynState.sent_succ, List.length_cons]
      · rw [hm', hm]
        simp

/-! ### Destinations -/

/-- The reverse of the choice of destinations. -/
def undoDestinations (bf : SynBf) (m : SynMsg) (s : SynState) : SynState :=
  { s with
    draws := s.draws - bf.c1.toNat - bf.c2.toNat - bf.c7.toNat
    prevSwitch := if bf.c2 then m.savedPrevSwitch else s.prevSwitch
    savedPermDest := if bf.c2 ∨ bf.c7 then m.savedPerm else s.savedPermDest }

/-- What the choice of the destinations leaves: it can be taken back, the result of the last call is
as it was, and the bits for the rest of the handler are clear. -/
structure Found (e e' : GenEv) : Prop where
  frame : ∃ draws prevSwitch savedPermDest, e'.s =
    { e.s with draws := draws, prevSwitch := prevSwitch, savedPermDest := savedPermDest }
  undone : undoDestinations e'.bf e'.m e'.s = e.s
  eventRc : e'.m.eventRc = e.m.eventRc
  live : e'.bf.c0 = false ∧ e'.bf.c5 = false

variable {c : SynCtx} {n : ℤ} {e e' : GenEv} {destSvr : List ℤ}

/-- Nothing was drawn. -/
theorem Found.refl (hbf : e.bf = .clear) : Found e e := by
  refine ⟨⟨_, _, _, rfl⟩, ?_, rfl, ?_⟩
  · rw [hbf]
    simp [undoDestinations, SynBf.clear]
  · rw [hbf]
    exact ⟨rfl, rfl⟩

theorem uniformDest_found (c : SynCtx) (n : ℤ) (hbf : e.bf = .clear) :
    Found e (uniformDest c n e).2 := by
  obtain ⟨s, m, bf, outs⟩ := e
  obtain rfl : bf = .clear := hbf
  refine ⟨⟨_, _, _, rfl⟩, ?_, rfl, rfl, rfl⟩
  simp [undoDestinations, uniformDest, GenEv.draw, GenEv.setBf, GenEv.setState, SynBf.clear]

theorem permInit_eq (c : SynCtx) (n : ℤ) (e : GenEv) : permInit c n e = e ∨
    ∃ dest, permInit c n e =
      ⟨{ e.s with draws := e.s.draws + 1, savedPermDest := dest }, e.m, { e.bf with c7 := true },
        e.outs⟩ := by
  rw [permInit]
  split_ifs with hzero
  · exact .inr ⟨_, rfl⟩
  · exact .inl rfl

theorem permSwitch_eq (c : SynCtx) (n : ℤ) (e : GenEv) : permSwitch c n e = e ∨
    ∃ dest, permSwitch c n e =
      ⟨{ e.s with draws := e.s.draws + 1, prevSwitch := e.s.genData, savedPermDest := dest }, e.m,
        { e.bf with c2 := true }, e.outs⟩ := by
  rw [permSwitch]
  split_ifs with hthresh
  · exact .inr ⟨_, rfl⟩
  · exact .inl rfl

/-- Either draw may happen or not: what was saved before them is enough to take them back. -/
theorem permDraws_found (c : SynCtx) (n : ℤ) (hbf : e.bf = .clear)
    (hswitch : e.m.savedPrevSwitch = e.s.prevSwitch) (hperm : e.m.savedPerm = e.s.savedPermDest) :
    Found e (permSwitch c n (permInit c n e)) := by
  obtain ⟨s, m, bf, outs⟩ := e
  obtain rfl : bf = .clear := hbf
  simp only at hswitch hperm
  rcases permInit_eq c n ⟨s, m, .clear, outs⟩ with hinit | ⟨dest, hinit⟩
  · rw [hinit]
    rcases permSwitch_eq c n ⟨s, m, .clear, outs⟩ with heq | ⟨dest', heq⟩
    · rw [heq]
      exact Found.refl rfl
    · rw [heq]
      refine ⟨⟨_, _, _, rfl⟩, ?_, rfl, rfl, rfl⟩
      simp [undoDestinations, SynBf.clear, hswitch, hperm]
  · rw [hinit]
    rcases permSwitch_eq c n ⟨{ s with draws := s.draws + 1, savedPermDest := dest }, m,
      { SynBf.clear with c7 := true }, outs⟩ with heq | ⟨dest', heq⟩
    · rw [heq]
      refine ⟨⟨_, _, _, rfl⟩, ?_, rfl, rfl, rfl⟩
      simp [undoDestinations, SynBf.clear, hperm]
    · rw [heq]
      refine ⟨⟨_, _, _, rfl⟩, ?_, rfl, rfl, rfl⟩
      simp [undoDestinations, SynBf.clear, hswitch, hperm]

theorem permutationDest_found (hbf : e.bf = .clear)
    (h : permutationDest c n e = .ok (destSvr, e')) : Found e e' := by
  simp only [permutationDest] at h
  split_ifs at h
  obtain ⟨-, rfl⟩ := Prod.mk.inj (Except.ok.inj h)
  obtain ⟨hframe, hundone, hrc, hlive⟩ := permDraws_found (e := e.setMsg fun m =>
    { m with savedPrevSwitch := e.s.prevSwitch }.setPerm e.s.savedPermDest) c n hbf rfl rfl
  exact ⟨hframe, hundone, hrc, hlive⟩

/-- **The choice of destinations can be taken back.** -/
theorem findDestinations_found (hbf : e.bf = .clear)
    (h : findDestinations c n e = .ok (destSvr, e')) : Found e e' := by
  unfold findDestinations at h
  cases hpattern : e.s.syntheticPattern with
  | uniform =>
    rw [hpattern] at h
    obtain ⟨-, rfl⟩ := Prod.mk.inj (Except.ok.inj h)
    exact uniformDest_found c n hbf
  | permutation =>
    rw [hpattern] at h
    exact permutationDest_found hbf h
  | nearestNeighbor | bisection | alltoall | stencil =>
    rw [hpattern] at h
    obtain ⟨-, rfl⟩ := Prod.mk.inj (Except.ok.inj h)
    exact Found.refl hbf

/-- How many ranks the messages of a pattern go to. -/
def Traffic.fanout (n : ℤ) : Traffic → ℕ
  | .alltoall => n.toNat - 1
  | .stencil => 4
  | _ => 1

theorem length_alltoallDests {localRank : ℤ} (h0 : 0 ≤ localRank) (hlt : localRank < n) :
    (alltoallDests localRank n).length = n.toNat - 1 := by
  have hnodup : ((List.range n.toNat).map fun i : ℕ => (i : ℤ)).Nodup :=
    List.nodup_range.map Nat.cast_injective
  have hmem : localRank ∈ (List.range n.toNat).map fun i : ℕ => (i : ℤ) :=
    List.mem_map.2 ⟨localRank.toNat, List.mem_range.2 (by omega), by omega⟩
  have herase : alltoallDests localRank n =
      ((List.range n.toNat).map fun i : ℕ => (i : ℤ)).erase localRank := by
    rw [hnodup.erase_eq_filter]
    refine List.filter_congr fun i _ => ?_
    rw [Bool.eq_iff_iff, decide_eq_true_iff, bne_iff_ne]
  rw [herase, List.length_erase_of_mem hmem, List.length_map, List.length_range]

theorem length_findDestinations (h0 : 0 ≤ e.s.localRank) (hlt : e.s.localRank < n)
    (h : findDestinations c n e = .ok (destSvr, e')) :
    destSvr.length = e.s.syntheticPattern.fanout n := by
  unfold findDestinations at h
  cases hpattern : e.s.syntheticPattern with
  | permutation =>
    rw [hpattern] at h
    simp only [permutationDest] at h
    split_ifs at h
    cases h
    rfl
  | alltoall =>
    rw [hpattern] at h
    obtain ⟨rfl, -⟩ := Prod.mk.inj (Except.ok.inj h)
    exact length_alltoallDests h0 hlt
  | uniform | nearestNeighbor | bisection | stencil =>
    rw [hpattern] at h
    obtain ⟨rfl, -⟩ := Prod.mk.inj (Except.ok.inj h)
    rfl

/-- With another rank there is a destination, and there are fewer than ranks. -/
theorem Traffic.fanout_bounds (hn : 2 ≤ n) (hn' : n < 2 ^ 31) (pattern : Traffic) :
    0 < pattern.fanout n ∧ pattern.fanout n < 2 ^ 32 := by
  cases pattern <;> simp only [Traffic.fanout] <;> omega

/-! ### The handler -/

/-- The ranks that a message is sent to. -/
def destsOf (c : SynCtx) (destSvr : List ℤ) (e : GenEv) : List ℤ :=
  if betweenTimers c e.s.appId then [] else destSvr

/-- The event before the limit of bytes is looked at. -/
def sentEv (c : SynCtx) (destSvr : List ℤ) (e : GenEv) (outs : List SynOut) : GenEv where
  s := e.s.sent c (destsOf c destSvr e).length
  m :=
    { e.m.setSynLength destSvr.length with
      savedGenData := e.s.genData
      eventRc := if destsOf c destSvr e = [] then e.m.eventRc else 1 }
  bf := e.bf
  outs := outs

/-- **What the generator does.**  It finds destinations, sends its messages, and may finish. -/
theorem genSyntheticTr_ok (h : genSyntheticTr c e = .ok e') (hlive : e.s.isFinished = false) :
    ∃ destSvr e₁ outs,
      findDestinations c (c.jobmap.getNumRanks (c.jobmap.toLocalId e.s.nwId).job) e =
        .ok (destSvr, e₁) ∧ e' = afterSends c (sentEv c destSvr e₁ outs) := by
  rw [genSyntheticTr, hlive, if_neg (by decide)] at h
  cases hfind : findDestinations c (c.jobmap.getNumRanks (c.jobmap.toLocalId e.s.nwId).job) e with
  | error text => simp only [hfind] at h; cases h
  | ok found =>
    obtain ⟨destSvr, e₁⟩ := found
    simp only [hfind] at h
    refine ⟨destSvr, e₁, ?_⟩
    cases hprio : qosPrio (e₁.setMsg (SynMsg.setSynLength destSvr.length)).s.qosLevel with
    | none => rw [hprio] at h; cases h
    | some prio =>
      rw [hprio] at h
      simp only at h
      generalize hdests : (if betweenTimers c
        (e₁.setMsg (SynMsg.setSynLength destSvr.length)).s.appId then [] else destSvr) = dests at h
      cases hsend : sendAll c (c.jobmap.toLocalId e.s.nwId) prio dests
          ((e₁.setMsg (SynMsg.setSynLength destSvr.length)).setMsg fun m =>
            { m with savedGenData :=
                (e₁.setMsg (SynMsg.setSynLength destSvr.length)).s.genData }) with
      | error text => rw [hsend] at h; cases h
      | ok e₂ =>
        rw [hsend] at h
        obtain ⟨hs, hbf, hm⟩ := sendAll_ok hsend
        refine ⟨e₂.outs, rfl, ?_⟩
        obtain rfl := Except.ok.inj h
        have hsent : e₂ = sentEv c destSvr e₁ e₂.outs := by
          obtain ⟨s₂, m₂, bf₂, outs₂⟩ := e₂
          simp only [sentEv, destsOf, GenEv.mk.injEq, and_true]
          exact ⟨hs.trans (by rw [← hdests]; rfl), hm.trans (by rw [← hdests]; rfl), hbf⟩
        rw [← hsent]

/-- The send is counted. -/
def SynState.counted (s : SynState) : SynState :=
  { s with
    numSends := s.numSends + 1
    sample := { s.sample with numSends := s.sample.numSends + 1 } }

/-- The limit of bytes is reached. -/
def AtLimit (c : SynCtx) (s : SynState) : Prop := c.maxGenData ≠ 0 ∧ s.genData ≥ c.maxGenData

instance (c : SynCtx) (s : SynState) : Decidable (AtLimit c s) :=
  inferInstanceAs (Decidable (_ ∧ _))

theorem afterSends_of_not (h : ¬AtLimit c e.s) :
    (afterSends c e).s = e.s.counted ∧ (afterSends c e).m = e.m ∧ (afterSends c e).bf = e.bf := by
  unfold afterSends
  rw [if_neg (by exact h)]
  exact ⟨rfl, rfl, rfl⟩

theorem afterSends_of_atLimit (h : AtLimit c e.s) :
    (afterSends c e).s =
        { e.s.counted with isFinished := true, elapsedTime := c.now - e.s.startTime } ∧
      (afterSends c e).m = e.m.setElapsedTime c.layout e.s.elapsedTime ∧
      (afterSends c e).bf = { e.bf with c5 := true } := by
  unfold afterSends
  rw [if_pos (by exact h)]
  exact ⟨rfl, rfl, rfl⟩

/-! ### Reachable states -/

/-- What holds of a rank in a run: it stays the same rank, and as long as it sends, its time has not
been taken and it is below the limit. -/
structure SynState.Reached (c : SynCtx) (s s₀ : SynState) : Prop where
  nwId : s.nwId = s₀.nwId
  localRank : s.localRank = s₀.localRank
  syntheticPattern : s.syntheticPattern = s₀.syntheticPattern
  elapsed : s.isFinished = false → s.elapsedTime = 0
  limit : s.isFinished = false → c.maxGenData = 0 ∨ s.genData < c.maxGenData

theorem SynState.reached_init (c : SynCtx) (nwId : ℤ) (pattern : Traffic) (qosLevel : ℤ) :
    Reached c (init c nwId pattern qosLevel) (init c nwId pattern qosLevel) := by
  refine ⟨rfl, rfl, rfl, fun _ => rfl, fun _ => ?_⟩
  rcases eq_or_ne c.maxGenData 0 with hzero | hpos
  · exact .inl hzero
  · exact .inr (UInt64.pos_iff_ne_zero.2 hpos)

/-- One event: a finished rank does nothing more, and one that goes on is below the limit. -/
theorem SynState.Reached.step {s₀ s s' : SynState} (h : s.Reached c s₀) {l : SynLabel}
    (hstep : (synMachine c).step s l = some s') : s'.Reached c s₀ := by
  cases l with
  | fin now m =>
    cases hstep
    exact ⟨h.nwId, h.localRank, h.syntheticPattern, fun hlive => (by cases hlive),
      fun hlive => (by cases hlive)⟩
  | others numSynBytesSent sample =>
    cases hstep
    exact ⟨h.nwId, h.localRank, h.syntheticPattern, h.elapsed, h.limit⟩
  | gen now m =>
    obtain ⟨e', hgen, rfl⟩ := Outcome.map_eq_ok (Outcome.toOption_eq_some hstep)
    cases hfin : s.isFinished with
    | true =>
      rw [genSyntheticTr, show (GenEv.start s m).s.isFinished = true from hfin, if_pos rfl] at hgen
      obtain rfl := Except.ok.inj hgen
      exact h
    | false =>
      obtain ⟨destSvr, e₁, outs, hfind, rfl⟩ := genSyntheticTr_ok hgen hfin
      obtain ⟨⟨draws, prevSwitch, savedPermDest, hframe⟩, -, -, -⟩ :=
        findDestinations_found rfl hfind
      have hs : (sentEv (c.at now) destSvr e₁ outs).s =
          e₁.s.sent (c.at now) (destsOf (c.at now) destSvr e₁).length := rfl
      rw [hframe] at hs
      by_cases hlimit : AtLimit (c.at now) (sentEv (c.at now) destSvr e₁ outs).s
      · rw [(afterSends_of_atLimit hlimit).1, hs]
        exact ⟨h.nwId, h.localRank, h.syntheticPattern, fun hlive => (by cases hlive),
          fun hlive => (by cases hlive)⟩
      · rw [(afterSends_of_not hlimit).1]
        refine ⟨?_, ?_, ?_, ?_, fun _ => ?_⟩
        · rw [hs]
          exact h.nwId
        · rw [hs]
          exact h.localRank
        · rw [hs]
          exact h.syntheticPattern
        · rw [hs]
          exact h.elapsed
        · rcases not_and_or.1 hlimit with hzero | hlt
          · exact .inl (not_not.1 hzero)
          · exact .inr (UInt64.not_le.1 hlt)

theorem SynState.Reached.run {s₀ s : SynState} {ls : List SynLabel} (h : s₀.Reached c s₀)
    (hrun : (synMachine c).run s₀ ls = some s) : s.Reached c s₀ :=
  Machine.run_invariant (I := fun s => s.Reached c s₀) (P := fun _ => True)
    (fun _ _ _ hs _ hstep => hs.step hstep) h (fun _ _ => trivial) hrun

end CodesSim.Synthetic
