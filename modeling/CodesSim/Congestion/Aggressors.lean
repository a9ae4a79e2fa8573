import CodesSim.Congestion.Abatement

/-!
# The aggressors of a port

An aggressor of a port should be an application with at least a threshold's share of the bytes on
the port (`Port.UsesShare`).  The share is computed with a division of integers, which is 0 unless
all the bytes are from the one application.

* `Port.Aggressor` and `Port.NewAggressor` are the two tests of the source: when a port becomes
  congested, and for a packet that a congested port receives.
* `aggressorsRight_iff` says for which counts they are right.
-/

namespace CodesSim.Congestion

variable {p : RouterParam} {l : List (Packet p)} {t t' : Tree p} {i : Fin p.radix}

/-- The bytes of an application on a port. -/
def Port.usage (port : Port p) (app : ℕ) : ℕ := Tally.count port.appCount app

/-- An application has at least the threshold's share of the bytes on a port. -/
def Port.UsesShare (port : Port p) (app : ℕ) : Prop :=
  p.singlePortAggressorUsageThreshold * port.packetCount ≤ port.usage app

/-- The bytes of an application, as `cc_router_received_packet` converts them. -/
def Port.convertedUsage (port : Port p) (app : ℕ) : ℕ := toUnsigned (toInt (port.usage app))

/-- The test of `cc_router_received_packet` for the application of a packet. -/
def Port.NewAggressor (port : Port p) (app : ℕ) : Prop :=
  p.singlePortAggressorUsageThreshold ≤ (port.convertedUsage app / port.packetCount : ℕ)

/-- **The aggressors of a port are found**, and their terminals are marked. -/
structure Tree.AggressorsRight (t : Tree p) (i : Fin p.radix) : Prop where
  congesting : ∀ app, 0 < (t.ports i).usage app →
    ((t.ports i).Aggressor app ↔ (t.ports i).UsesShare app)
  congested : ∀ app, 0 < (t.ports i).usage app →
    ((t.ports i).NewAggressor app ↔ (t.ports i).UsesShare app)
  marked : Congests t i → ∀ now sv t' sv' outs, congestionCheck t now i sv = some (t', sv', outs) →
    ∀ app term, 0 < (t.ports i).usage app → (t.ports i).UsesShare app →
      (t.ports i).Uses app term → term ∈ t'.marks i

/-- A share that is computed with integers is 0 or at least 1. -/
theorem threshold_le_div {threshold : ℚ} (h0 : 0 ≤ threshold) (h1 : threshold ≤ 1) {v occupancy : ℕ}
    (hocc : 0 < occupancy) : threshold ≤ (v / occupancy : ℕ) ↔ threshold = 0 ∨ occupancy ≤ v := by
  rcases Nat.lt_or_ge v occupancy with hlt | hge
  · rw [Nat.div_eq_of_lt hlt, Nat.cast_zero]
    exact ⟨fun h => .inl (le_antisymm h h0), fun h => h.elim le_of_eq fun h => absurd h (by omega)⟩
  · have hone : (1 : ℚ) ≤ (v / occupancy : ℕ) := by
      exact_mod_cast (Nat.one_le_div_iff hocc).2 hge
    exact ⟨fun _ => .inr hge, fun _ => h1.trans hone⟩

theorem Counts.usage_le {port : Port p} (h : Counts l port.toNode) (app : ℕ) :
    port.usage app ≤ port.packetCount := by
  have hle := Tally.weigh_add_weigh_le Packet.app Packet.size l
    (Nat.ne_of_lt (Nat.lt_succ_self app))
  have hpackets : port.packetCount = (l.map Packet.size).sum := h.packets
  rw [Port.usage, h.apps.count]
  omega

theorem Counts.aggressor_iff {port : Port p} (h : Counts l port.toNode) {app : ℕ}
    (hpos : 0 < port.usage app) :
    port.Aggressor app ↔ IsAggressor p (port.usage app) port.packetCount := by
  have hget : port.appCount[app]? = some (port.usage app) := by
    rw [h.apps.noZero.getElem?, if_neg (by simpa [Port.usage] using hpos.ne')]
    rfl
  rw [Port.Aggressor, hget]
  simp

/-- **The terminals of the aggressors of a port that becomes congested are marked.** -/
theorem mem_marks_of_congests (hc : Congests t i) {now : STime} {sv sv' : Saved} {outs : List Out}
    (h : congestionCheck t now i sv = some (t', sv', outs)) {app term : ℕ}
    (hagg : (t.ports i).Aggressor app) (huses : (t.ports i).Uses app term) : term ∈ t'.marks i := by
  obtain ⟨-, agg, hagg', ht', -⟩ | ⟨hd, -⟩ | ⟨hn, -⟩ := congestionCheck_cases h
  · rw [ht', Tree.setMarks_marks, Tally.mem_insertAll]
    exact .inr (List.mem_map.2 ⟨(term, app), (mem_aggressors hagg' _).2 ⟨hagg, huses⟩, rfl⟩)
  · exact absurd (hc.1.symm.trans hd.1) (by decide)
  · exact absurd hc hn

/-- **The tests are right** if the threshold is 0, or if each application has all the bytes or less
than its share. -/
theorem aggressorsRight_iff (h : t.Holding l) (hocc : 0 < (t.ports i).packetCount)
    (h0 : 0 ≤ p.singlePortAggressorUsageThreshold) (h1 : p.singlePortAggressorUsageThreshold ≤ 1) :
    t.AggressorsRight i ↔ p.singlePortAggressorUsageThreshold = 0 ∨
      ∀ app, 0 < (t.ports i).usage app →
        ((t.ports i).usage app = (t.ports i).packetCount ∧
          (t.ports i).packetCount ≤ (t.ports i).convertedUsage app) ∨
        (((t.ports i).usage app : ℚ) <
            p.singlePortAggressorUsageThreshold * (t.ports i).packetCount ∧
          (t.ports i).convertedUsage app < (t.ports i).packetCount) := by
  have hcounts := h.port i
  generalize hport : t.ports i = port at hcounts hocc
  have hfirst (app : ℕ) (hpos : 0 < port.usage app) : port.Aggressor app ↔
      p.singlePortAggressorUsageThreshold = 0 ∨ port.packetCount ≤ port.usage app := by
    rw [hcounts.aggressor_iff hpos]
    exact threshold_le_div h0 h1 hocc
  have hsecond (app : ℕ) : port.NewAggressor app ↔
      p.singlePortAggressorUsageThreshold = 0 ∨ port.packetCount ≤ port.convertedUsage app :=
    threshold_le_div h0 h1 hocc
  have hle (app : ℕ) := hcounts.usage_le app
  constructor
  · rintro ⟨hcongesting, hcongested, -⟩
    rw [hport] at hcongesting hcongested
    refine or_iff_not_imp_left.2 fun hne app hpos => ?_
    have hone := (hfirst app hpos).symm.trans (hcongesting app hpos)
    have htwo := (hsecond app).symm.trans (hcongested app hpos)
    simp only [hne, false_or] at hone htwo
    by_cases hshare : port.UsesShare app
    · exact .inl ⟨le_antisymm (hle app) (hone.2 hshare), htwo.2 hshare⟩
    · exact .inr ⟨not_le.1 hshare, not_le.1 (mt htwo.1 hshare)⟩
  · intro hcond
    have hshare (app : ℕ) (hpos : 0 < port.usage app) :
        (port.Aggressor app ↔ port.UsesShare app) ∧
          (port.NewAggressor app ↔ port.UsesShare app) := by
      rw [hfirst app hpos, hsecond app]
      obtain hzero | hall := hcond
      · have hall : port.UsesShare app := by
          rw [Port.UsesShare, hzero, zero_mul]
          exact Nat.cast_nonneg _
        simp [hzero, hall]
      · obtain ⟨huse, hconv⟩ | ⟨huse, hconv⟩ := hall app hpos
        · have hshare : port.UsesShare app := by
            rw [Port.UsesShare, huse]
            exact mul_le_of_le_one_left (Nat.cast_nonneg _) h1
          exact ⟨iff_of_true (.inr huse.ge) hshare, iff_of_true (.inr hconv) hshare⟩
        · have hne : p.singlePortAggressorUsageThreshold ≠ 0 := by
            rintro hzero
            rw [hzero, zero_mul] at huse
            exact absurd (Nat.cast_nonneg (α := ℚ) (port.usage app)) (not_le.2 huse)
          have hnot : ¬ port.packetCount ≤ port.usage app := fun hfull =>
            absurd huse (not_lt.2 ((mul_le_of_le_one_left (Nat.cast_nonneg _) h1).trans
              (by exact_mod_cast hfull)))
          have hshare : ¬ port.UsesShare app := not_le.2 huse
          exact ⟨iff_of_false (by tauto) hshare,
            iff_of_false (fun hor => hor.elim hne (by omega)) hshare⟩
    refine ⟨fun app hpos => hport ▸ (hshare app (hport ▸ hpos)).1,
      fun app hpos => hport ▸ (hshare app (hport ▸ hpos)).2, ?_⟩
    intro hc now sv t' sv' outs hcheck app term hpos huses hterm
    rw [hport] at hpos huses
    exact mem_marks_of_congests hc hcheck (hport ▸ (hshare app hpos).1.2 huses) hterm

/-- The port of a router that holds some packets. -/
def onePort.holding (l : List (Packet onePort)) : Tree onePort :=
  l.foldr (fun x t => t.enqueuePacket x) (Tree.init onePort 0 (fun _ => 0) fun _ _ => 0)

theorem onePort.holding_holds (l : List (Packet onePort)) : (onePort.holding l).Holding l := by
  induction l with
  | nil => exact Tree.Holding.init ..
  | cons x l ih => exact ih.enqueue x

/-- A port with the packets of one application. -/
theorem aggressorsRight_onePort :
    (onePort.holding [onePort.packet 0 60 (by decide)]).AggressorsRight (0 : Fin 1) := by
  refine (aggressorsRight_iff (onePort.holding_holds _) (by decide +kernel) (by decide +kernel)
    (by decide +kernel)).2 (.inr fun app hpos => .inl ?_)
  have happ : app = 0 := by
    by_contra hne
    rw [Port.usage, ((onePort.holding_holds _).port (0 : Fin 1)).apps.count] at hpos
    obtain ⟨x, hx, hxapp⟩ := Tally.exists_of_weigh hpos.ne'
    have hx := List.mem_singleton.1 (List.mem_of_mem_filter hx)
    rw [hx] at hxapp
    exact hne hxapp.symm
  subst happ
  decide +kernel

/-- **A quarter of the bytes is no share**: with a threshold of a tenth, an application with 20 of
80 bytes is not found. -/
theorem quarter_not_aggressor : ¬ ∀ (p : RouterParam) (l : List (Packet p)) (t : Tree p)
    (i : Fin p.radix), t.Holding l → 0 < (t.ports i).packetCount →
      0 ≤ p.singlePortAggressorUsageThreshold → p.singlePortAggressorUsageThreshold ≤ 1 →
        t.AggressorsRight i := by
  intro h
  have hholds := onePort.holding_holds
    [onePort.packet 0 60 (by decide), onePort.packet 1 20 (by decide)]
  have hright := (h onePort _ _ (0 : Fin 1) hholds (by decide +kernel) (by decide +kernel)
    (by decide +kernel)).congesting 1 (by decide +kernel)
  rw [(hholds.port (0 : Fin 1)).aggressor_iff (by decide +kernel), Port.UsesShare] at hright
  exact absurd (hright.2 (by decide +kernel)) (by decide +kernel)

end CodesSim.Congestion
