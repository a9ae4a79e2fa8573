import CodesSim.Lib.Trail
import CodesSim.Mesh.Steps

/-!
# The ports of an express mesh

Along a dimension a router is linked with the positions `x - 1`, `x - 1 - gap`, ... below it and
`x + 1`, `x + 1 + gap`, ... above it (`neighbours_eq`), and there are no more of them than the
dimension has ports (`length_neighbours_le`).  The ports that the routing computes by divisions are
those of links (`mem_portsTowards`), and each leads closer to the destination: what is left of a
dimension (`remaining`) counts the hops, and every choice makes it one less.
-/

namespace CodesSim.Mesh

variable {p : Param} {i x loc dest : ℕ}

/-! ### Links -/

theorem filter_range_mod {g : ℕ} (hg : 0 < g) (a n : ℕ) :
    (List.range n).filter (fun i => a ≤ i ∧ (i - a) % g = 0) =
      (List.range ((n - a + (g - 1)) / g)).map fun k => a + g * k := by
  induction n with
  | zero =>
    have hzero : (0 - a + (g - 1)) / g = 0 := Nat.div_eq_of_lt (by omega)
    rw [hzero]
    rfl
  | succ n ih =>
    rw [List.range_succ, List.filter_append, ih]
    obtain hlt | hle := Nat.lt_or_ge n a
    · have hold : n - a = 0 := by omega
      have hnew : n + 1 - a = 0 := by omega
      have hnot : ¬ a ≤ n := by omega
      simp [hold, hnew, hnot]
    · obtain ⟨d, rfl⟩ := Nat.exists_eq_add_of_le hle
      have hsub : a + d - a = d := by omega
      have hsub' : a + d + 1 - a + (g - 1) = d + g := by omega
      rw [hsub, hsub', Nat.add_div_right d hg]
      have hdiv := Nat.div_add_mod d g
      by_cases hmod : d % g = 0
      · have hcount : (d + (g - 1)) / g = d / g := by
          have hzero : (g - 1) / g = 0 := Nat.div_eq_of_lt (by omega)
          conv_lhs => rw [← hdiv, hmod, Nat.add_zero]
          rw [Nat.mul_add_div hg, hzero, Nat.add_zero]
        have hlast : a + g * (d / g) = a + d := by omega
        rw [hcount, List.range_succ, List.map_append]
        simp [hmod, hlast]
      · have hlt := Nat.mod_lt d hg
        have hone : (d % g + (g - 1)) / g = 1 := by
          have heq : d % g + (g - 1) = d % g - 1 + g := by omega
          rw [heq, Nat.add_div_right _ hg, Nat.div_eq_of_lt (by omega)]
        have hcount : (d + (g - 1)) / g = d / g + 1 := by
          conv_lhs => rw [← hdiv, Nat.add_assoc]
          rw [Nat.mul_add_div hg, hone]
        rw [hcount]
        simp [hmod]

namespace Param

variable (p)

/-- The number of links of position `x` to positions below it. -/
def below (x : ℕ) : ℕ := (x - (x - 1) % p.gap + (p.gap - 1)) / p.gap

/-- The number of links of position `x` of dimension `i` to positions above it. -/
def above (i x : ℕ) : ℕ := (p.dimLength.getD i 0 - x - 1 + (p.gap - 1)) / p.gap

variable {p}

theorem linked_below (h : loc < x) :
    p.Linked x loc ↔ (x - 1) % p.gap ≤ loc ∧ (loc - (x - 1) % p.gap) % p.gap = 0 := by
  have hgap := p.gap_pos
  have hdiv := Nat.div_add_mod (x - 1) p.gap
  have hlt := Nat.mod_lt (x - 1) hgap
  have hlinked : p.Linked x loc ↔ (x - 1 - loc) % p.gap = 0 := by
    constructor
    · rintro ⟨-, hnext | hnext | ⟨-, hmod⟩ | ⟨hup, -⟩⟩
      · have hzero : x - 1 - loc = 0 := by omega
        rw [hzero, Nat.zero_mod]
      · omega
      · exact hmod
      · omega
    · intro hmod
      exact ⟨by omega, .inr (.inr (.inl ⟨h, hmod⟩))⟩
  rw [hlinked]
  constructor
  · intro hmod
    obtain ⟨k, hk⟩ := Nat.dvd_of_mod_eq_zero hmod
    have hfirst : (x - 1) % p.gap = loc % p.gap := by
      have heq : x - 1 = loc + p.gap * k := by omega
      rw [heq, Nat.add_mul_mod_self_left]
    rw [hfirst]
    refine ⟨Nat.mod_le _ _, ?_⟩
    have hsub : loc - loc % p.gap = p.gap * (loc / p.gap) := by
      have := Nat.div_add_mod loc p.gap
      omega
    rw [hsub, Nat.mul_mod_right]
  · rintro ⟨hle, hmod⟩
    obtain ⟨k, hk⟩ := Nat.dvd_of_mod_eq_zero hmod
    have heq : x - 1 - loc = p.gap * ((x - 1) / p.gap) - p.gap * k := by omega
    rw [heq, ← Nat.mul_sub, Nat.mul_mod_right]

theorem linked_above (d : ℕ) : p.Linked x (x + d) ↔ 1 ≤ d ∧ (d - 1) % p.gap = 0 := by
  constructor
  · rintro ⟨hne, hnext | hnext | ⟨hdown, -⟩ | ⟨hup, hmod⟩⟩
    · omega
    · obtain rfl : d = 1 := by omega
      exact ⟨le_rfl, by simp⟩
    · omega
    · have heq : x + d - x - 1 = d - 1 := by omega
      rw [heq] at hmod
      exact ⟨by omega, hmod⟩
  · rintro ⟨hpos, hmod⟩
    have heq : x + d - x - 1 = d - 1 := by omega
    exact ⟨by omega, .inr (.inr (.inr ⟨by omega, by rwa [heq]⟩))⟩

/-- **The links of a position**, below it and above it. -/
theorem neighbours_eq (hx : x < p.dimLength.getD i 0) :
    p.neighbours i x = (List.range (p.below x)).map (fun k => (x - 1) % p.gap + p.gap * k) ++
      (List.range (p.above i x)).map fun k => x + (1 + p.gap * k) := by
  obtain ⟨n, hn⟩ := Nat.exists_eq_add_of_le (Nat.succ_le_of_lt hx)
  have hsplit : List.range (p.dimLength.getD i 0) =
      List.range x ++ (List.range (n + 1)).map (x + ·) := by
    rw [hn, ← List.range_add]
    congr 1
    omega
  rw [neighbours, hsplit, List.filter_append]
  congr 1
  · rw [below, ← filter_range_mod p.gap_pos]
    refine List.filter_congr fun loc hloc => decide_eq_decide.2 ?_
    exact linked_below (List.mem_range.1 hloc)
  · have hcount : p.above i x = (n + 1 - 1 + (p.gap - 1)) / p.gap := by
      rw [above, hn]
      congr 1
      omega
    have hmap : (List.range (p.above i x)).map (fun k => x + (1 + p.gap * k)) =
        ((List.range (p.above i x)).map fun k => 1 + p.gap * k).map (x + ·) := by
      rw [List.map_map]
      rfl
    rw [hmap, hcount, ← filter_range_mod p.gap_pos, List.filter_map]
    congr 1
    refine List.filter_congr fun d _ => decide_eq_decide.2 ?_
    exact linked_above d

theorem below_zero : p.below 0 = 0 := by
  have hgap := p.gap_pos
  rw [below, Nat.zero_sub, Nat.zero_add]
  exact Nat.div_eq_of_lt (by omega)

theorem below_succ (n : ℕ) : p.below (n + 1) = n / p.gap + 1 := by
  have hsub : n + 1 - n % p.gap + (p.gap - 1) = p.gap * (n / p.gap) + p.gap := by
    have hgap := p.gap_pos
    have hdiv := Nat.div_add_mod n p.gap
    have hle := Nat.mod_le n p.gap
    omega
  rw [below, Nat.add_sub_cancel, hsub, Nat.add_div_right _ p.gap_pos,
    Nat.mul_div_cancel_left _ p.gap_pos]

theorem above_last (hx : p.dimLength.getD i 0 = x + 1) : p.above i x = 0 := by
  have hgap := p.gap_pos
  rw [above, hx]
  exact Nat.div_eq_of_lt (by omega)

theorem above_lt {n : ℕ} (hx : p.dimLength.getD i 0 = x + 1 + (n + 1)) :
    p.above i x = n / p.gap + 1 := by
  have hgap := p.gap_pos
  have hsub : x + 1 + (n + 1) - x - 1 + (p.gap - 1) = n + p.gap := by omega
  rw [above, hx, hsub, Nat.add_div_right _ hgap]

theorem consPerDim_of_three {n : ℕ} (hn : p.dimLength.getD i 0 = n + 3) :
    p.consPerDim i = 2 + n / p.gap := by
  have hcast : ((p.dimLength.getD i 0 : ℕ) : ℤ) - 3 = (n : ℤ) := by
    omega
  rw [consPerDim, hcast, ← Int.ofNat_tdiv]
  exact Int.toNat_natCast (2 + n / p.gap)

theorem consPerDim_of_two (hn : p.dimLength.getD i 0 = 2) : 1 ≤ p.consPerDim i := by
  have hcast : ((p.dimLength.getD i 0 : ℕ) : ℤ) - 3 = -1 := by
    rw [hn]
    rfl
  have hbound : -1 ≤ Int.tdiv (-1) p.gap := by
    have hle := Nat.div_le_self 1 p.gap
    have hone : Int.tdiv 1 p.gap = (1 / p.gap : ℕ) := (Int.ofNat_tdiv 1 p.gap).symm
    rw [Int.neg_tdiv, hone]
    omega
  rw [consPerDim, hcast]
  omega

/-- **The links of a dimension fit into its ports.** -/
theorem length_neighbours_le (hx : x < p.dimLength.getD i 0) :
    (p.neighbours i x).length ≤ p.consPerDim i := by
  rw [neighbours_eq hx, List.length_append, List.length_map, List.length_map, List.length_range,
    List.length_range]
  obtain ⟨n, hn⟩ := Nat.exists_eq_add_of_le (Nat.succ_le_of_lt hx)
  -- the division does not lose more than one link
  have hstep (m : ℕ) : (m + 1) / p.gap ≤ m / p.gap + 1 := by
    rw [← Nat.add_div_right _ p.gap_pos]
    exact Nat.div_le_div_right (Nat.add_le_add_left p.gap_pos m)
  cases x with
  | zero =>
    rw [below_zero]
    rcases n with - | - | n
    · rw [above_last hn]
      exact Nat.zero_le _
    · rw [above_lt hn, Nat.zero_div]
      exact consPerDim_of_two hn
    · rw [above_lt hn, consPerDim_of_three (n := n) (by omega)]
      have := hstep n
      omega
  | succ x =>
    rw [below_succ]
    cases n with
    | zero =>
      rw [above_last hn]
      cases x with
      | zero =>
        rw [Nat.zero_div]
        exact consPerDim_of_two hn
      | succ x =>
        rw [consPerDim_of_three (n := x) (by omega)]
        have := hstep x
        omega
    | succ n =>
      rw [above_lt hn, consPerDim_of_three (n := x + n) (by omega)]
      have : x / p.gap + n / p.gap ≤ (x + n) / p.gap := Nat.div_add_div_le_add_div ..
      omega

theorem getElem?_below (hx : x < p.dimLength.getD i 0) {k : ℕ} (hk : k < p.below x) :
    (p.neighbours i x)[k]? = some ((x - 1) % p.gap + p.gap * k) := by
  rw [neighbours_eq hx, List.getElem?_append_left (by simpa using hk), List.getElem?_map,
    List.getElem?_range hk]
  rfl

theorem getElem?_above (hx : x < p.dimLength.getD i 0) {k : ℕ} (hk : k < p.above i x) :
    (p.neighbours i x)[p.below x + k]? = some (x + (1 + p.gap * k)) := by
  rw [neighbours_eq hx, List.getElem?_append_right (by simp), List.length_map, List.length_range,
    Nat.add_sub_cancel_left, List.getElem?_map, List.getElem?_range hk]
  rfl

/-! ### Ports towards a position -/

/-- The divisions of the routing in natural numbers. -/
theorem portsTowards_eq (hne : x ≠ dest) : p.portsTowards i x dest =
    if dest + 1 = x then [p.offsetPerDim i + (x - 1) / p.gap]
    else if dest = x + 1 then [p.offsetPerDim i + p.below x]
    else if dest < x then
      if (x - 1 - dest) % p.gap = 0 then [p.offsetPerDim i + (dest - (x - 1) % p.gap) / p.gap]
      else
        [p.offsetPerDim i + if dest < (x - 1) % p.gap then 0
          else (dest - (x - 1) % p.gap) / p.gap + 1, p.offsetPerDim i + (x - 1) / p.gap]
    else
      if (dest - x - 1) % p.gap = 0 then
        [p.offsetPerDim i + (p.below x + (dest - x - 1) / p.gap)]
      else [p.offsetPerDim i + (p.below x + (dest - x - 1) / p.gap),
        p.offsetPerDim i + p.below x] := by
  have hup : x < dest →
      Int.tdiv ((dest : ℤ) - x - 1) p.gap = ((dest - x - 1) / p.gap : ℕ) := by
    intro hlt
    have hcast : (dest : ℤ) - x - 1 = (dest - x - 1 : ℕ) := by omega
    rw [hcast]
    exact (Int.ofNat_tdiv _ _).symm
  rw [portsTowards]
  cases x with
  | zero =>
    have hpos : 0 < dest := Nat.pos_of_ne_zero hne.symm
    have hup := hup hpos
    have hzero : Int.tdiv (((0 : ℕ) : ℤ) - 1 - -1) p.gap = 0 := Int.zero_tdiv _
    have hnot : ¬ dest + 1 = 0 := Nat.succ_ne_zero _
    have hnot' : ¬ dest < 0 := Nat.not_lt_zero _
    simp only [if_true, if_neg hnot, if_neg hnot', below_zero, Nat.zero_add, hzero, hup]
    generalize (dest - 0 - 1) / p.gap = q
    split_ifs <;> simp only [List.map_cons, List.map_nil, List.cons.injEq, and_true] <;> omega
  | succ x =>
    have hdiv := Nat.div_add_mod x p.gap
    have hlow : Int.tdiv (((x + 1 : ℕ) : ℤ) - 1 - (x % p.gap : ℕ)) p.gap = (x / p.gap : ℕ) := by
      have hcast : ((x + 1 : ℕ) : ℤ) - 1 - (x % p.gap : ℕ) = (p.gap * (x / p.gap) : ℕ) := by
        omega
      rw [hcast, ← Int.ofNat_tdiv, Nat.mul_div_cancel_left _ p.gap_pos]
    have hfirst : x % p.gap ≤ dest →
        Int.tdiv ((dest : ℤ) - (x % p.gap : ℕ)) p.gap = ((dest - x % p.gap) / p.gap : ℕ) := by
      intro hle
      have hcast : (dest : ℤ) - (x % p.gap : ℕ) = (dest - x % p.gap : ℕ) := by omega
      rw [hcast, ← Int.ofNat_tdiv]
    -- a link to the destination is not one before the first
    have hdirect : dest < x + 1 → (x - dest) % p.gap = 0 → x % p.gap ≤ dest := by
      intro hlt hmod
      obtain ⟨k, hk⟩ := Nat.dvd_of_mod_eq_zero hmod
      have heq : x = dest + p.gap * k := by omega
      rw [heq, Nat.add_mul_mod_self_left]
      exact Nat.mod_le _ _
    simp only [Nat.add_sub_cancel, if_neg x.succ_ne_zero, hlow, below_succ]
    generalize x / p.gap = low
    generalize (dest - x % p.gap) / p.gap = down at hfirst ⊢
    generalize (dest - (x + 1) - 1) / p.gap = up at hup ⊢
    by_cases hdown : dest + 1 = x + 1
    · simp only [if_pos hdown, List.map_cons, List.map_nil, List.cons.injEq, and_true]
      omega
    · by_cases hnext : dest = x + 1 + 1
      · simp only [if_neg hdown, if_pos hnext, List.map_cons, List.map_nil, List.cons.injEq,
          and_true]
        omega
      · simp only [if_neg hdown, if_neg hnext]
        by_cases hlt : dest < x + 1
        · simp only [if_pos hlt]
          by_cases hmod : (x - dest) % p.gap = 0
          · simp only [if_pos hmod, hfirst (hdirect hlt hmod), List.map_cons, List.map_nil,
              List.cons.injEq, and_true]
            omega
          · by_cases hle : x % p.gap ≤ dest
            · have hnot : ¬ ((dest : ℤ) < (x % p.gap : ℕ)) := by omega
              have hnot' : ¬ dest < x % p.gap := Nat.not_lt.2 hle
              simp only [if_neg hmod, hfirst hle, if_neg hnot, if_neg hnot', List.map_cons,
                List.map_nil, List.cons.injEq, and_true]
              omega
            · have hlt' : (dest : ℤ) < (x % p.gap : ℕ) := by omega
              simp only [if_neg hmod, if_pos hlt', if_pos (Nat.lt_of_not_le hle), List.map_cons,
                List.map_nil, List.cons.injEq, and_true]
              omega
        · simp only [if_neg hlt, hup (by omega)]
          split_ifs <;> simp only [List.map_cons, List.map_nil, List.cons.injEq, and_true] <;>
            omega

/-! ### What is left of a dimension -/

/-- The hops that a distance along a dimension takes, long ones and short ones together. -/
def hopsFor (p : Param) : ℕ → ℕ
  | 0 => 0
  | d + 1 => d % p.gap + 1

/-- The hops from position `x` to position `dest` of a dimension. -/
def remaining (p : Param) (x dest : ℕ) : ℕ := p.hopsFor (x - dest + (dest - x))

@[simp] theorem remaining_self : p.remaining dest dest = 0 := by
  rw [remaining, Nat.sub_self, hopsFor]

theorem remaining_eq_zero : p.remaining x dest = 0 ↔ x = dest := by
  constructor
  · intro h
    rw [remaining] at h
    cases hd : x - dest + (dest - x) with
    | zero => omega
    | succ d =>
      rw [hd, hopsFor] at h
      exact absurd h (Nat.succ_ne_zero _)
  · rintro rfl
    exact remaining_self

theorem remaining_le : p.remaining x dest ≤ p.gap := by
  rw [remaining]
  cases x - dest + (dest - x) with
  | zero => exact Nat.zero_le _
  | succ d => exact Nat.mod_lt d p.gap_pos

theorem remaining_below (h : dest ≤ x) : p.remaining x dest = p.hopsFor (x - dest) := by
  rw [remaining, Nat.sub_eq_zero_of_le h, Nat.add_zero]

theorem remaining_above (h : x ≤ dest) : p.remaining x dest = p.hopsFor (dest - x) := by
  rw [remaining, Nat.sub_eq_zero_of_le h, Nat.zero_add]

theorem succ_mod {g r : ℕ} (hg : 0 < g) (h : (r + 1) % g ≠ 0) : (r + 1) % g = r % g + 1 := by
  have hlt := Nat.mod_lt r hg
  have hmod : (r + 1) % g = (r % g + 1) % g := by rw [Nat.mod_add_mod]
  obtain hlt' | heq : r % g + 1 < g ∨ r % g + 1 = g := by omega
  · rw [hmod, Nat.mod_eq_of_lt hlt']
  · rw [hmod, heq, Nat.mod_self] at h
    exact absurd rfl h

theorem hopsFor_hop {m r : ℕ} (h : r = 0 ∨ r % p.gap ≠ 0) :
    p.hopsFor (1 + p.gap * m + r) = p.hopsFor r + 1 := by
  have heq : 1 + p.gap * m + r = p.gap * m + r + 1 := by omega
  rw [heq, hopsFor, Nat.mul_add_mod]
  cases r with
  | zero => rw [Nat.zero_mod, hopsFor]
  | succ r =>
    obtain h | h := h
    · cases h
    · rw [hopsFor, succ_mod p.gap_pos h]

variable (p) in
/-- Port `port` of position `x` of dimension `i` is that of a link to `loc`, which is closer to
`dest` and not behind it, by one of the hops that are left. -/
structure Approaches (i x dest port loc : ℕ) : Prop where
  link : ∃ k, port = p.offsetPerDim i + k ∧ (p.neighbours i x)[k]? = some loc
  between : dest ≤ loc ∧ loc < x ∨ x < loc ∧ loc ≤ dest
  remaining : p.remaining loc dest + 1 = p.remaining x dest

theorem approaches_below {n k : ℕ} (hx : n + 1 < p.dimLength.getD i 0) (hk : k ≤ n / p.gap)
    (hle : dest ≤ n % p.gap + p.gap * k)
    (hdir : dest = n % p.gap + p.gap * k ∨ (n - dest) % p.gap ≠ 0) :
    p.Approaches i (n + 1) dest (p.offsetPerDim i + k) (n % p.gap + p.gap * k) := by
  have hdiv := Nat.div_add_mod n p.gap
  obtain ⟨m, hm⟩ := Nat.exists_eq_add_of_le hk
  rw [hm, Nat.mul_add] at hdiv
  refine ⟨⟨k, rfl, ?_⟩, .inl ⟨hle, by omega⟩, ?_⟩
  · refine getElem?_below hx ?_
    rw [below_succ]
    omega
  · obtain ⟨r, hr⟩ := Nat.exists_eq_add_of_le hle
    rw [hr, remaining_below (Nat.le_add_right _ _), remaining_below (by omega),
      Nat.add_sub_cancel_left]
    have hdist : n + 1 - dest = 1 + p.gap * m + r := by omega
    rw [hdist, hopsFor_hop]
    have hmod : n - dest = p.gap * m + r := by omega
    rw [hmod, Nat.mul_add_mod] at hdir
    exact hdir.imp (fun h => by omega) id

theorem approaches_above {m : ℕ} (hdest : dest < p.dimLength.getD i 0)
    (hle : x + (1 + p.gap * m) ≤ dest)
    (hdir : dest = x + (1 + p.gap * m) ∨ (dest - x - 1) % p.gap ≠ 0) :
    p.Approaches i x dest (p.offsetPerDim i + (p.below x + m)) (x + (1 + p.gap * m)) := by
  obtain ⟨r, rfl⟩ := Nat.exists_eq_add_of_le hle
  refine ⟨⟨p.below x + m, rfl, ?_⟩, .inr ⟨by omega, hle⟩, ?_⟩
  · refine getElem?_above (by omega) ?_
    obtain ⟨n, hn⟩ := Nat.exists_eq_add_of_le (Nat.succ_le_of_lt hdest)
    have hlen : p.dimLength.getD i 0 = x + 1 + (p.gap * m + r + n + 1) := by omega
    rw [above_lt hlen, Nat.lt_succ_iff, Nat.le_div_iff_mul_le p.gap_pos, Nat.mul_comm]
    omega
  · rw [remaining_above (Nat.le_add_right _ _), remaining_above (by omega), Nat.add_sub_cancel_left]
    have hdist : x + (1 + p.gap * m) + r - x = 1 + p.gap * m + r := by omega
    rw [hdist, hopsFor_hop]
    have hmod : x + (1 + p.gap * m) + r - x - 1 = p.gap * m + r := by omega
    rw [hmod, Nat.mul_add_mod] at hdir
    exact hdir.imp (fun h => by omega) id

/-- **The ports of the routing** are those of links that lead towards the destination. -/
theorem mem_portsTowards {port : ℕ} (hx : x < p.dimLength.getD i 0)
    (hdest : dest < p.dimLength.getD i 0) (hne : x ≠ dest)
    (h : port ∈ p.portsTowards i x dest) : ∃ loc, p.Approaches i x dest port loc := by
  rw [portsTowards_eq hne] at h
  have hnext : x + 1 ≤ dest → (dest = x + 1 ∨ (dest - x - 1) % p.gap ≠ 0) →
      p.Approaches i x dest (p.offsetPerDim i + p.below x) (x + 1) :=
    fun hle hdir => approaches_above (m := 0) hdest hle hdir
  obtain hlt | hlt : x < dest ∨ dest < x := by omega
  · have hfar : dest - x - 1 = p.gap * ((dest - x - 1) / p.gap) + (dest - x - 1) % p.gap :=
      (Nat.div_add_mod _ _).symm
    rw [if_neg (by omega)] at h
    by_cases hone : dest = x + 1
    · rw [if_pos hone, List.mem_singleton] at h
      exact ⟨x + 1, h ▸ hnext (by omega) (.inl hone)⟩
    · rw [if_neg hone, if_neg (by omega)] at h
      by_cases hmod : (dest - x - 1) % p.gap = 0
      · rw [if_pos hmod, List.mem_singleton] at h
        exact ⟨_, h ▸ approaches_above hdest (by omega) (.inl (by omega))⟩
      · rw [if_neg hmod, List.mem_pair] at h
        obtain rfl | rfl := h
        · exact ⟨_, approaches_above hdest (by omega) (.inr hmod)⟩
        · exact ⟨_, hnext hlt (.inr hmod)⟩
  · obtain ⟨n, rfl⟩ : ∃ n, x = n + 1 := ⟨x - 1, by omega⟩
    have hdiv := Nat.div_add_mod n p.gap
    have hprev : (dest = n ∨ (n - dest) % p.gap ≠ 0) →
        p.Approaches i (n + 1) dest (p.offsetPerDim i + n / p.gap) n := by
      intro hdir
      have heq : n % p.gap + p.gap * (n / p.gap) = n := Nat.mod_add_div n p.gap
      have happ : p.Approaches i (n + 1) dest (p.offsetPerDim i + n / p.gap)
          (n % p.gap + p.gap * (n / p.gap)) :=
        approaches_below hx le_rfl (by omega) (hdir.imp (fun h => h.trans heq.symm) id)
      rwa [heq] at happ
    rw [Nat.add_sub_cancel] at h
    by_cases hone : dest + 1 = n + 1
    · rw [if_pos hone, List.mem_singleton] at h
      exact ⟨n, h ▸ hprev (.inl (by omega))⟩
    · rw [if_neg hone, if_neg (by omega), if_pos hlt] at h
      by_cases hmod : (n - dest) % p.gap = 0
      · rw [if_pos hmod, List.mem_singleton] at h
        obtain ⟨m, hm⟩ := Nat.dvd_of_mod_eq_zero hmod
        have hfirst : n % p.gap = dest % p.gap := by
          have heq : n = dest + p.gap * m := by omega
          rw [heq, Nat.add_mul_mod_self_left]
        have hsub : dest - n % p.gap = p.gap * (dest / p.gap) := by
          have := Nat.div_add_mod dest p.gap
          omega
        rw [hsub, Nat.mul_div_cancel_left _ p.gap_pos] at h
        have hloc : n % p.gap + p.gap * (dest / p.gap) = dest := by
          rw [hfirst]
          exact Nat.mod_add_div dest p.gap
        exact ⟨_, h ▸ approaches_below hx (Nat.div_le_div_right (by omega)) hloc.ge
          (.inl hloc.symm)⟩
      · rw [if_neg hmod, List.mem_pair] at h
        obtain rfl | rfl := h
        · by_cases hlt' : dest < n % p.gap
          · rw [if_pos hlt']
            exact ⟨_, approaches_below hx (Nat.zero_le _) (by omega) (.inr hmod)⟩
          · rw [if_neg hlt']
            have hsub := Nat.div_add_mod (dest - n % p.gap) p.gap
            have hltmod := Nat.mod_lt (dest - n % p.gap) p.gap_pos
            generalize (dest - n % p.gap) / p.gap = j at hsub ⊢
            have hle : j + 1 ≤ n / p.gap := by
              by_contra hnot
              -- otherwise the destination is the next position
              have hmul := Nat.mul_le_mul_left p.gap (Nat.le_of_lt_succ (Nat.lt_of_not_le hnot))
              refine hmod ?_
              have heq : n - dest = 0 := by omega
              rw [heq, Nat.zero_mod]
            exact ⟨_, approaches_below hx hle (by rw [Nat.mul_succ]; omega) (.inr hmod)⟩
        · exact ⟨n, hprev (.inr hmod)⟩

end Param

end CodesSim.Mesh
