import CodesSim.Lib.BusyTime
import CodesSim.SimpleP2P.Basic

/-!
# The active time of a category

The statistics of simplep2p say how long a NIC was sending, or receiving, messages of a category.
Many connections may be active at once; the handlers keep one open period for a category and
`sp_finalize` adds the last one.  Both arrays of slots are searched for the same names, so a slot of
one belongs to the slot of the other with the same number.

* `activeTime_measured` : what is reported is the measure of the time in which a message of the
  category was on its way, provided that each category has a name.

A slot without a name is free.  A message without a category leaves its times in a free slot, to the
next category that comes (`nameless_counted`).
-/

namespace CodesSim.SimpleP2P

open Function MeasureTheory

/-! ### Periods -/

/-- Times as real numbers. -/
noncomputable def realTime : STime →+ ℝ := (Rat.castHom ℝ).toAddMonoidHom

@[simp] theorem realTime_apply (t : STime) : realTime t = t := rfl

theorem realTime_strictMono : StrictMono realTime := fun _ _ h => Rat.cast_lt.2 h

/-- A time is the measure of the union of periods. -/
def Measured (periods : List (STime × STime)) (t : STime) : Prop :=
  0 ≤ t ∧ volume (active realTime periods) = ENNReal.ofReal t

/-- The time from the handling of a message to its completion on its connection. -/
def period (c : NicCtx) (ns : SpState) (x : NicCall SpMsg) : Option (STime × STime) :=
  (spEvent { c with fresh := x.fresh } x.now ns x.globals x.type x.msg).map fun r =>
    (x.now, match x.type with
      | .start => r.state.sendNextIdle r.msg.destMnRelId
      | .ready => r.state.recvNextIdle r.msg.srcMnRelId)

/-- The period of a message, if it is of this kind. -/
def periodOf (c : NicCtx) (type : NicEventType) (category : String) (ns : SpState)
    (x : NicCall SpMsg) : List (STime × STime) :=
  if x.type = type ∧ x.msg.category = category then (period c ns x).toList else []

/-- The periods of the messages of a category that are sent (`start`) or received (`ready`). -/
def periods (c : NicCtx) (ns : SpState) (xs : List (NicCall SpMsg)) (type : NicEventType)
    (category : String) : List (STime × STime) :=
  (spMachine c).observe (periodOf c type category) ns xs

/-- What is reported at the end of a run. -/
structure Reported (c : NicCtx) (ns : SpState) (xs : List (NicCall SpMsg)) (final : StatsArray)
    (category : String) : Prop where
  /-- A category that was used has a slot. -/
  slot : (∃ type, periods c ns xs type category ≠ []) →
    ∃ i < categoryMax, (final i).category = category
  sendTime : ∀ i < categoryMax, (final i).category = category →
    Measured (periods c ns xs .start category) (final i).sendTime
  recvTime : ∀ i < categoryMax, (final i).category = category →
    Measured (periods c ns xs .ready category) (final i).recvTime

/-! ### Names of slots -/

/-- The first slots have different names, the others none. -/
structure Named (names : ℕ → String) : Prop where
  lt : ∀ {i}, names i ≠ "" → i < categoryMax
  before : ∀ {i j}, i ≤ j → names j ≠ "" → names i ≠ ""
  injective : ∀ {i j}, names i ≠ "" → names i = names j → i = j

/-- The slot of a category. -/
def SlotOf (names : ℕ → String) (category : String) (i : ℕ) : Prop :=
  (List.range categoryMax).find? (fun k => names k = "" ∨ names k = category) = some i

section Names

variable {names : ℕ → String} {category : String} {i : ℕ}

theorem slotOf_iff : SlotOf names category i ↔ (names i = "" ∨ names i = category) ∧
    i < categoryMax ∧ ∀ k < i, names k ≠ "" ∧ names k ≠ category := by
  rw [SlotOf, List.find?_range_eq_some]
  simp

theorem Named.eq_slot (h : Named names) (hi : SlotOf names category i) (hne : category ≠ "") {k : ℕ}
    (hk : names k = category) : k = i := by
  obtain ⟨hname, -, hbefore⟩ := slotOf_iff.1 hi
  have hk' : names k ≠ "" := hk ▸ hne
  obtain hlt | heq | hgt := lt_trichotomy k i
  · exact absurd hk (hbefore k hlt).2
  · exact heq
  · obtain hfree | hname := hname
    · exact absurd hfree (h.before hgt.le hk')
    · exact h.injective hk' (hk.trans hname.symm)

theorem Named.claim (h : Named names) (hi : SlotOf names category i) (hne : category ≠ "") :
    Named (update names i category) := by
  obtain ⟨-, hlt, hbefore⟩ := slotOf_iff.1 hi
  refine ⟨fun {k} hk => ?_, fun {k l} hkl hl => ?_, fun {k l} hk hkl => ?_⟩
  · by_cases hki : k = i
    · rwa [hki]
    · rw [update_of_ne hki] at hk
      exact h.lt hk
  · by_cases hki : k = i
    · rwa [hki, update_self]
    · rw [update_of_ne hki]
      by_cases hli : l = i
      · exact (hbefore k (by omega)).1
      · rw [update_of_ne hli] at hl
        exact h.before hkl hl
  · by_cases hki : k = i
    · by_cases hli : l = i
      · rw [hki, hli]
      · rw [hki, update_self, update_of_ne hli] at hkl
        exact absurd (h.eq_slot hi hne hkl.symm) hli
    · rw [update_of_ne hki] at hk hkl
      by_cases hli : l = i
      · rw [hli, update_self] at hkl
        exact absurd (h.eq_slot hi hne hkl) hki
      · rw [update_of_ne hli] at hkl
        exact h.injective hk hkl

end Names

/-! ### What is known of the slots -/

/-- The names of the slots. -/
def SpState.names (ns : SpState) (i : ℕ) : String := (ns.spStatsArray i).category

/-- What is known of the periods of a slot, sent or received. -/
def SpState.busy (ns : SpState) : NicEventType → ℕ → Busy STime
  | .start, i => ⟨(ns.spStatsArray i).sendTime, (ns.idleTimesCat i).sendPrevIdleAll,
      (ns.idleTimesCat i).sendNextIdleAll⟩
  | .ready, i => ⟨(ns.spStatsArray i).recvTime, (ns.idleTimesCat i).recvPrevIdleAll,
      (ns.idleTimesCat i).recvNextIdleAll⟩

/-- The slots of both arrays belong together, and each slot tells the active time of the periods so
far. -/
structure Inv (ns : SpState) (clock : STime)
    (ps : NicEventType → String → List (STime × STime)) : Prop where
  idles : ∀ i, (ns.idleTimesCat i).category = ns.names i
  named : Named ns.names
  used : ∀ type category, ps type category ≠ [] → ∃ i, ns.names i = category ∧ category ≠ ""
  free : ∀ type i, ns.names i = "" → ns.busy type i = .init
  measures : ∀ type i, (ns.busy type i).Measures realTime (ps type (ns.names i)) clock

variable {c : NicCtx} {ns ns' : SpState} {x : NicCall SpMsg} {xs : List (NicCall SpMsg)}
  {clock : STime} {ps : NicEventType → String → List (STime × STime)}

theorem Inv.init (params : Param STime) (id : ℤ) {start : STime} (h : 0 ≤ start) :
    Inv (spInit params id start) start fun _ _ => [] where
  idles := fun _ => rfl
  named := ⟨fun h => absurd rfl h, fun _ h => absurd rfl h, fun h => absurd rfl h⟩
  used := fun _ _ h => absurd rfl h
  free := by rintro (_ | _) i - <;> rfl
  measures := by rintro (_ | _) i <;> exact .init h

theorem busy_sendOn {now : STime} {g : MsgGlobals} {m : SpMsg} {destRelId : ℤ} {bw latency : STime}
    {i : ℕ} (type : NicEventType) :
    (sendOn c now ns g m destRelId bw latency i i).state.busy type = if type = .start then
      update (ns.busy type) i
        ((ns.busy type i).step now (sendNextIdle now ns m destRelId bw)) else ns.busy type := by
  funext k
  cases type with
  | start =>
    by_cases hk : k = i
    · simp [hk, SpState.busy, sendOn, startStats, startIdles, Busy.step]
    · simp [hk, SpState.busy, sendOn]
  | ready =>
    by_cases hk : k = i
    · simp [hk, SpState.busy, sendOn, startStats, startIdles]
    · simp [hk, SpState.busy, sendOn]

theorem busy_receiveOn {now : STime} {m : SpMsg} {bw : STime} {i : ℕ} (type : NicEventType) :
    (receiveOn now ns m bw i i).busy type = if type = .ready then
      update (ns.busy type) i
        ((ns.busy type i).step now (recvQueueTime now ns m bw + now)) else ns.busy type := by
  funext k
  cases type with
  | start =>
    by_cases hk : k = i
    · simp [hk, SpState.busy, receiveOn, readyStats, readyIdles]
    · simp [hk, SpState.busy, receiveOn]
  | ready =>
    by_cases hk : k = i
    · simp [hk, SpState.busy, receiveOn, readyStats, readyIdles, Busy.step]
    · simp [hk, SpState.busy, receiveOn]

/-- Both arrays have given the slot `i` to a category. -/
structure Claims (ns ns' : SpState) (i : ℕ) (category : String) : Prop where
  names : ns'.names = update ns.names i category
  idles : ∀ k, (ns'.idleTimesCat k).category = ns'.names k

theorem Claims.of_update {st : MnStats} {y : CategoryIdles} {i : ℕ} {category : String}
    (hstats : ns'.spStatsArray = update ns.spStatsArray i st)
    (hidle : ns'.idleTimesCat = update ns.idleTimesCat i y) (hst : st.category = category)
    (hy : y.category = category) (hidles : ∀ k, (ns.idleTimesCat k).category = ns.names k) :
    Claims ns ns' i category := by
  have hnames : ns'.names = update ns.names i category := by
    funext k
    rw [SpState.names, hstats]
    by_cases hk : k = i
    · simp [hk, hst]
    · simp [hk, SpState.names]
  refine ⟨hnames, fun k => ?_⟩
  rw [hnames, hidle]
  by_cases hk : k = i
  · simp [hk, hy]
  · simp [hk, hidles]

theorem step_busy (h : (spMachine c).step ns x = some ns')
    (hidles : ∀ i, (ns.idleTimesCat i).category = ns.names i) :
    ∃ i stop, x.now ≤ stop ∧ period c ns x = some (x.now, stop) ∧
      SlotOf ns.names x.msg.category i ∧ Claims ns ns' i x.msg.category ∧
      ∀ type, ns'.busy type = if type = x.type then
        update (ns.busy type) i ((ns.busy type i).step x.now stop) else ns.busy type := by
  obtain ⟨r, hr, rfl⟩ := Option.map_eq_some_iff.1 h
  have hsame : spGetCategoryIdles ns.idleTimesCat x.msg.category =
      findStats ns.spStatsArray x.msg.category := by
    simp only [spGetCategoryIdles, findStats, hidles]
    rfl
  cases htype : x.type with
  | start =>
    rw [htype] at hr
    obtain ⟨destRelId, bw, latency, i, j, hbw, -, hi, hj, rfl⟩ := handleMsgStartEvent_eq_some hr
    obtain rfl : j = i := Option.some.inj (hj.symm.trans (hsame.trans hi))
    refine ⟨j, sendNextIdle x.now ns x.msg destRelId bw, le_sendNextIdle hbw, ?_, hi,
      .of_update rfl rfl rfl rfl hidles, busy_sendOn⟩
    rw [period, htype, hr, Option.map_some]
    simp [sendOn]
  | ready =>
    rw [htype] at hr
    obtain ⟨bw, i, j, eventRc, g', out, hbw, -, hi, hj, -, rfl⟩ := handleMsgReadyEvent_eq_some hr
    obtain rfl : j = i := Option.some.inj (hj.symm.trans (hsame.trans hi))
    refine ⟨j, recvQueueTime x.now ns x.msg bw + x.now, ?_, ?_, hi,
      .of_update rfl rfl rfl rfl hidles, busy_receiveOn⟩
    · have : 0 ≤ recvQueueTime x.now ns x.msg bw := recvQueueTime_nonneg hbw
      linarith
    · rw [period, htype, hr, Option.map_some]
      simp [receiveOn, saveReady]

/-- The periods after another message. -/
def addPeriod (ps : NicEventType → String → List (STime × STime)) (x : NicCall SpMsg)
    (p : STime × STime) (type : NicEventType) (category : String) : List (STime × STime) :=
  ps type category ++ if x.type = type ∧ x.msg.category = category then [p] else []

theorem Inv.step (hinv : Inv ns clock ps) (hclock : clock ≤ x.now) (hne : x.msg.category ≠ "")
    (h : (spMachine c).step ns x = some ns') :
    ∃ p, period c ns x = some p ∧ Inv ns' x.now (addPeriod ps x p) := by
  obtain ⟨i, stop, hstop, hperiod, hslot, ⟨hnames, hidles⟩, hbusy⟩ := step_busy h hinv.idles
  have hnamed : Named ns'.names := by
    rw [hnames]
    exact hinv.named.claim hslot hne
  have hself : ns'.names i = x.msg.category := by rw [hnames, update_self]
  -- the slot has been told the periods of the category, also when it is new
  have hknown : ∀ type, (ns.busy type i).Measures realTime (ps type x.msg.category) clock := by
    intro type
    obtain hfree | hname := (slotOf_iff.1 hslot).1
    · have hnone : ps type x.msg.category = [] := by
        by_contra hps
        obtain ⟨k, hk, -⟩ := hinv.used type x.msg.category hps
        obtain rfl := hinv.named.eq_slot hslot hne hk
        exact hne (hk.symm.trans hfree)
      have hinit := hinv.measures type i
      have hempty : ps type (ns.names i) = [] := by
        by_contra hps
        obtain ⟨k, -, hk⟩ := hinv.used type (ns.names i) hps
        exact hk hfree
      rwa [hempty, ← hnone] at hinit
    · rw [← hname]
      exact hinv.measures type i
  refine ⟨_, hperiod, hidles, hnamed, fun type category hps => ?_, fun type k hk => ?_,
    fun type k => ?_⟩
  · by_cases hcat : x.msg.category = category
    · exact ⟨i, hself.trans hcat, hcat ▸ hne⟩
    · rw [addPeriod, if_neg (fun h => hcat h.2), List.append_nil] at hps
      obtain ⟨k, hk, hkne⟩ := hinv.used type category hps
      refine ⟨k, ?_, hkne⟩
      have hki : k ≠ i := by
        rintro rfl
        obtain hfree | hname := (slotOf_iff.1 hslot).1
        · exact hkne (hk.symm.trans hfree)
        · exact hcat (hname.symm.trans hk)
      rw [hnames, update_of_ne hki, hk]
  · have hki : k ≠ i := by
      rintro rfl
      exact hne (hself.symm.trans hk)
    rw [hnames, update_of_ne hki] at hk
    rw [hbusy]
    split_ifs
    · rw [update_of_ne hki, hinv.free type k hk]
    · exact hinv.free type k hk
  · by_cases hki : k = i
    · subst hki
      rw [hself, hbusy, addPeriod]
      by_cases htype : type = x.type
      · rw [if_pos htype, if_pos ⟨htype.symm, rfl⟩, update_self]
        exact (hknown type).step realTime_strictMono hclock hstop
      · rw [if_neg htype, if_neg (fun h => htype h.1.symm), List.append_nil]
        exact (hknown type).mono hclock
    · have hkcat : x.msg.category ≠ ns'.names k := by
        intro h
        exact hki (hnamed.injective (hself.symm ▸ hne) (hself.trans h)).symm
      rw [addPeriod, if_neg (fun h => hkcat h.2), List.append_nil, hbusy]
      have hold := (hinv.measures type k).mono hclock
      rw [hnames, update_of_ne hki]
      split_ifs
      · rwa [update_of_ne hki]
      · exact hold

theorem Inv.run (hinv : Inv ns clock ps) (hsorted : (clock :: xs.map NicCall.now).IsChain (· ≤ ·))
    (hne : ∀ x ∈ xs, x.msg.category ≠ "") (h : (spMachine c).run ns xs = some ns') :
    ∃ clock', Inv ns' clock' fun type category =>
      ps type category ++ periods c ns xs type category := by
  induction xs generalizing ns clock ps with
  | nil =>
    obtain rfl := Option.some.inj h
    exact ⟨clock, by simpa [periods, Machine.observe] using hinv⟩
  | cons x xs ih =>
    obtain ⟨t, ht, hrun⟩ := Machine.run_cons_eq_some.1 h
    rw [List.map_cons, List.isChain_cons_cons] at hsorted
    obtain ⟨p, hp, hstep⟩ := hinv.step hsorted.1 (hne x List.mem_cons_self) ht
    have hne' : ∀ y ∈ xs, y.msg.category ≠ "" := fun y hy => hne y (List.mem_cons_of_mem _ hy)
    obtain ⟨clock', hrest⟩ := ih hstep hsorted.2 hne' hrun
    refine ⟨clock', ?_⟩
    have hobserve : ∀ type category, periods c ns (x :: xs) type category =
        (if x.type = type ∧ x.msg.category = category then [p] else []) ++
          periods c t xs type category := by
      intro type category
      rw [periods, Machine.observe, ht, periodOf, hp]
      rfl
    simpa only [hobserve, addPeriod, List.append_assoc] using hrest

/-! ### The end of a run -/

section Finalize

variable {idles : ℕ → CategoryIdles} {stats : StatsArray} {n i k : ℕ}

theorem spFinalizeFrom_before (h : i < k) : spFinalizeFrom idles n k stats i = stats i := by
  induction n generalizing k stats with
  | zero => rfl
  | succ n ih =>
    rw [spFinalizeFrom]
    split_ifs
    · rfl
    · rw [ih (by omega), update_of_ne (by omega)]

/-- A slot without a name is left alone. -/
theorem spFinalizeFrom_free (h : (idles i).category = "") :
    spFinalizeFrom idles n k stats i = stats i := by
  induction n generalizing k stats with
  | zero => rfl
  | succ n ih =>
    rw [spFinalizeFrom]
    split_ifs with hk
    · rfl
    · have hne : i ≠ k := fun hik => hk (hik ▸ h)
      rw [ih, update_of_ne hne]

theorem spFinalizeFrom_named (hk : k ≤ i) (hi : i < k + n)
    (h : ∀ j ≤ i, (idles j).category ≠ "") :
    spFinalizeFrom idles n k stats i = lastRanges (stats i) (idles i) := by
  induction n generalizing k stats with
  | zero => omega
  | succ n ih =>
    rw [spFinalizeFrom, if_neg (h k hk)]
    obtain rfl | hlt := Nat.eq_or_lt_of_le hk
    · rw [spFinalizeFrom_before (Nat.lt_succ_self k), update_self]
    · rw [ih hlt (by omega), update_of_ne (Nat.ne_of_gt hlt)]

end Finalize

/-- What is reported is what is known of the slots. -/
theorem Inv.finalize (hinv : Inv ns clock ps) {i : ℕ} (hi : i < categoryMax) :
    (spFinalize ns i).category = ns.names i ∧
      (spFinalize ns i).sendTime = (ns.busy .start i).total ∧
      (spFinalize ns i).recvTime = (ns.busy .ready i).total := by
  by_cases hname : ns.names i = ""
  · have hsend := hinv.free .start i hname
    have hrecv := hinv.free .ready i hname
    rw [spFinalize, spFinalizeFrom_free ((hinv.idles i).trans hname), hsend, hrecv]
    refine ⟨rfl, ?_, ?_⟩
    · exact (congrArg Busy.time hsend).trans (by simp [Busy.total, Busy.init])
    · exact (congrArg Busy.time hrecv).trans (by simp [Busy.total, Busy.init])
  · have hnamed : ∀ j ≤ i, (ns.idleTimesCat j).category ≠ "" := by
      intro j hj
      rw [hinv.idles]
      exact hinv.named.before hj hname
    rw [spFinalize, spFinalizeFrom_named (Nat.zero_le i) (by omega) hnamed]
    exact ⟨rfl, rfl, rfl⟩

theorem Measured.of_measures {b : Busy STime} {l : List (STime × STime)}
    (h : b.Measures realTime l clock) : Measured l b.total := by
  refine ⟨?_, h.volume_active realTime_strictMono⟩
  have htime : 0 ≤ b.time := by
    have htime := h.time_nonneg
    rwa [realTime_apply, Rat.cast_nonneg] at htime
  have hle := h.le
  rw [Busy.total]
  linarith

/-- **The statistics measure the union of the active periods**: in every run on messages that have
a category, in the order of time, for every category. -/
theorem activeTime_measured {params : Param STime} {id : ℤ} {start : STime} (hstart : 0 ≤ start)
    (hsorted : (start :: xs.map NicCall.now).IsChain (· ≤ ·))
    (hne : ∀ x ∈ xs, x.msg.category ≠ "")
    (hrun : (spMachine c).run (spInit params id start) xs = some ns) (category : String) :
    Reported c (spInit params id start) xs (spFinalize ns) category := by
  obtain ⟨clock', hinv⟩ := (Inv.init params id hstart).run hsorted hne hrun
  simp only [List.nil_append] at hinv
  refine ⟨fun ⟨type, hused⟩ => ?_, fun i hi hname => ?_, fun i hi hname => ?_⟩
  · obtain ⟨i, hname, hcat⟩ := hinv.used type category hused
    have hi : i < categoryMax := hinv.named.lt (hname ▸ hcat)
    exact ⟨i, hi, (hinv.finalize hi).1.trans hname⟩
  · obtain ⟨hcat, htime, -⟩ := hinv.finalize hi
    have hmeasures := hinv.measures .start i
    rw [← hcat, hname] at hmeasures
    rw [htime]
    exact .of_measures hmeasures
  · obtain ⟨hcat, -, htime⟩ := hinv.finalize hi
    have hmeasures := hinv.measures .ready i
    rw [← hcat, hname] at hmeasures
    rw [htime]
    exact .of_measures hmeasures

/-- Two nodes with an LP and a NIC each, seen from the first NIC. -/
def twoNics : NicCtx where
  env :=
    { twoNodes with
      conf := [⟨"MODELNET_GRP", 2, [⟨"nw-lp", none, 1⟩, ⟨"modelnet_simplep2p", none, 1⟩]⟩] }
  gid := 1
  fresh := (shortMessage 0).event

/-- A bandwidth of 1000 MiB/s and a latency of 5 ns between them. -/
def twoNicsParam : Param STime := ⟨⟨fun _ => some 5, 8⟩, ⟨fun _ => some 1000, 8⟩, 4, 2⟩

/-- A message of 1 MiB, which takes 1 ms, to the second NIC or from it. -/
def oneMiB (type : NicEventType) (now : STime) (category : String) : NicCall SpMsg where
  now := now
  globals := untouched
  fresh := twoNics.fresh
  type := type
  msg :=
    { srcGid := 0
      srcMnLp := 1
      finalDestGid := 2
      destMnLp := 3
      netMsgSizeBytes := 1048576
      eventSizeBytes := 0
      localEventSizeBytes := 0
      category := category
      eventRc := 0
      isPull := false
      pullSize := 0
      edata := fun _ => 0
      srcMnRelId := 1
      destMnRelId := 0
      sendNextIdleSaved := 0
      recvNextIdleSaved := 0
      sendTimeSaved := 0
      recvTimeSaved := 0
      sendNextIdleAllSaved := 0
      sendPrevIdleAllSaved := 0
      recvNextIdleAllSaved := 0
      recvPrevIdleAllSaved := 0 }

/-- The second message waits for the first; the third comes when the second is through. -/
theorem activeTime_measured_threeMessages : ∃ ns, (spMachine twoNics).run (spInit twoNicsParam 0 0)
      [oneMiB .start 0 "a", oneMiB .start 500000 "a", oneMiB .start 3000000 "a"] = some ns ∧
    Reported twoNics (spInit twoNicsParam 0 0)
      [oneMiB .start 0 "a", oneMiB .start 500000 "a", oneMiB .start 3000000 "a"]
      (spFinalize ns) "a" := by
  have hruns : ((spMachine twoNics).run (spInit twoNicsParam 0 0)
      [oneMiB .start 0 "a", oneMiB .start 500000 "a", oneMiB .start 3000000 "a"]).isSome := by
    decide +kernel
  obtain ⟨ns, hrun⟩ := Option.isSome_iff_exists.1 hruns
  exact ⟨ns, hrun, activeTime_measured le_rfl (by decide +kernel) (by decide +kernel) hrun "a"⟩

/-- A message without a category and then one of category `x`, 3 ms later. -/
def namelessRun : List (NicCall SpMsg) := [oneMiB .start 0 "", oneMiB .start 3000000 "x"]

/-- **A nameless message counts for the next new category**: 2 ms are reported for 1 ms. -/
theorem nameless_counted : ¬ ∀ xs ns, (0 :: xs.map NicCall.now).IsChain (· ≤ ·) →
    (spMachine twoNics).run (spInit twoNicsParam 0 0) xs = some ns → ∀ category,
      Reported twoNics (spInit twoNicsParam 0 0) xs (spFinalize ns) category := by
  intro hclaim
  have hruns : (((spMachine twoNics).run (spInit twoNicsParam 0 0) namelessRun).any fun ns =>
      (spFinalize ns 0).category = "x" ∧ (spFinalize ns 0).sendTime = 2000000) = true := by
    decide +kernel
  obtain ⟨ns, hrun, hfinal⟩ := (Option.any_eq_true _ _).1 hruns
  obtain ⟨hcat, htime⟩ := of_decide_eq_true hfinal
  have hperiods : periods twoNics (spInit twoNicsParam 0 0) namelessRun .start "x" =
      [] ++ [(3000000, 4000000)] := by
    decide +kernel
  obtain ⟨-, hvol⟩ := (hclaim namelessRun ns (by decide +kernel) hrun "x").sendTime 0
    (by decide) hcat
  rw [hperiods, active_snoc, active_nil, Set.empty_union, Real.volume_Icc, htime,
    ENNReal.ofReal_eq_ofReal_iff (by norm_num) (by norm_num)] at hvol
  norm_num at hvol

end CodesSim.SimpleP2P
