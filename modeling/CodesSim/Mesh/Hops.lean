import CodesSim.Lib.MixedRadix
import CodesSim.Mesh.Ports
import Mathlib.Algebra.Order.BigOperators.Group.Finset
import Mathlib.Data.List.GetD

/-!
# Routes of an express mesh

Every port that `getNextStop` may choose, that for the alternate queue included, is connected and
leads to a router with one hop less to go (`leadsOn_of_uses`), so that no route has more hops than
the dimensions have together (`Route.length_le`); away from the destination it goes on
(`exists_hop`).
-/

namespace CodesSim.Mesh

open MixedRadix (digits value digits_value value_lt value_digits valid_digits)

variable {p : Param} {r dest : ℕ}

/-! ### Coordinates -/

theorem toDimId_eq (lens : List ℕ) (id : ℕ) : toDimId id lens = digits lens id := by
  induction lens generalizing id with
  | nil => rfl
  | cons len lens ih => rw [toDimId, digits, ih]

theorem toFlatId_eq (lens xs : List ℕ) : toFlatId lens xs = value lens xs := by
  induction lens generalizing xs with
  | nil => rw [toFlatId, value] <;> simp
  | cons len lens ih =>
    cases xs with
    | nil => rw [toFlatId, value] <;> simp
    | cons x xs => rw [toFlatId, value, ih]
variable {r' : ℕ}


namespace Param

/-- The coordinates of a router are inside the mesh. -/
theorem valid_dimPosition (p : Param) (r : ℕ) :
    MixedRadix.Valid p.dimLength (p.dimPosition r) := by
  rw [dimPosition, toDimId_eq]
  exact valid_digits p.length_pos r

theorem dimPosition_lt (r : ℕ) {i : ℕ} (hi : i < p.nDims) :
    (p.dimPosition r).getD i 0 < p.dimLength.getD i 0 :=
  (p.valid_dimPosition r).getD_lt hi

theorem dimPosition_inj (hr : r < p.totalRouters) (hr' : r' < p.totalRouters)
    (h : p.dimPosition r = p.dimPosition r') : r = r' := by
  rw [dimPosition, dimPosition, toDimId_eq, toDimId_eq] at h
  rw [← value_digits p.length_pos hr, h, value_digits p.length_pos hr']

/-! ### The ports of a dimension -/

theorem offsetPerDim_succ (i : ℕ) : p.offsetPerDim (i + 1) = p.offsetPerDim i + p.consPerDim i := by
  simp [offsetPerDim, List.range_succ, Nat.add_assoc]

theorem offsetPerDim_mono {i j : ℕ} (h : i ≤ j) : p.offsetPerDim i ≤ p.offsetPerDim j := by
  induction h with
  | refl => exact le_rfl
  | step _ ih => exact ih.trans (by rw [offsetPerDim_succ]; exact Nat.le_add_right _ _)

theorem numCn_le_offsetPerDim (i : ℕ) : p.numCn ≤ p.offsetPerDim i := Nat.le_add_right _ _

theorem find?_reverse_range {P : ℕ → Bool} {n i : ℕ} (hi : i < n) (hP : P i)
    (hnot : ∀ j, i < j → j < n → ¬ P j) : (List.range n).reverse.find? P = some i := by
  induction n with
  | zero => cases hi
  | succ n ih =>
    rw [List.range_succ, List.reverse_append, List.reverse_singleton, List.singleton_append]
    obtain rfl | hlt := Nat.eq_or_lt_of_le (Nat.lt_succ_iff.1 hi)
    · rw [List.find?_cons_of_pos hP]
    · rw [List.find?_cons_of_neg (hnot n hlt n.lt_succ_self)]
      exact ih hlt fun j hij hj => hnot j hij (Nat.lt_succ_of_lt hj)

theorem dimOf_eq {i port : ℕ} (hi : i < p.nDims) (hle : p.offsetPerDim i ≤ port)
    (hlt : port < p.offsetPerDim (i + 1)) : p.dimOf port = some i := by
  refine find?_reverse_range hi (decide_eq_true hle) fun j hij _ hj => ?_
  have hmono : p.offsetPerDim (i + 1) ≤ p.offsetPerDim j := offsetPerDim_mono hij
  exact absurd (of_decide_eq_true hj) (by omega)

/-! ### What a port leads to -/

variable (p) in
/-- The number of hops from router `r` to the router of terminal `dest`. -/
def hopsLeft (r dest : ℕ) : ℕ :=
  ∑ i ∈ Finset.range p.nDims,
    p.remaining ((p.dimPosition r).getD i 0) ((p.dimPosition (dest / p.numCn)).getD i 0)

variable (p) in
/-- Port `port` of router `r`, one of those of dimension `i`, is connected with router `r'`.  That
router has another position in this dimension only, which is closer to that of the router of
terminal `dest` and not behind it, and it has one hop less to go. -/
structure LeadsOn (r dest port i r' : ℕ) : Prop where
  dim : i < p.nDims
  port_ge : p.offsetPerDim i ≤ port
  port_lt : port < p.offsetPerDim (i + 1)
  link : p.linkConnections r port = some (.router r')
  range : r' < p.totalRouters
  position : ∃ loc, p.dimPosition r' = (p.dimPosition r).set i loc ∧
    ((p.dimPosition (dest / p.numCn)).getD i 0 ≤ loc ∧ loc < (p.dimPosition r).getD i 0 ∨
      (p.dimPosition r).getD i 0 < loc ∧ loc ≤ (p.dimPosition (dest / p.numCn)).getD i 0)
  hops : p.hopsLeft r' dest + 1 = p.hopsLeft r dest

theorem hopsLeft_le (r dest : ℕ) : p.hopsLeft r dest ≤ p.nDims * p.gap := by
  have hle := Finset.sum_le_card_nsmul (Finset.range p.nDims)
    (fun i => p.remaining ((p.dimPosition r).getD i 0) ((p.dimPosition (dest / p.numCn)).getD i 0))
    p.gap fun i _ => remaining_le
  rwa [Finset.card_range, Nat.nsmul_eq_mul] at hle

theorem length_dimPosition (r : ℕ) : (p.dimPosition r).length = p.nDims :=
  (p.valid_dimPosition r).length_eq

theorem hopsLeft_eq_zero :
    p.hopsLeft r dest = 0 ↔ p.dimPosition r = p.dimPosition (dest / p.numCn) := by
  rw [hopsLeft, Finset.sum_eq_zero_iff]
  constructor
  · intro h
    refine List.ext_getElem (by rw [length_dimPosition, length_dimPosition]) fun i hi hi' => ?_
    rw [length_dimPosition] at hi
    have heq := remaining_eq_zero.1 (h i (Finset.mem_range.2 hi))
    rwa [List.getD_eq_getElem _ _ ‹_›, List.getD_eq_getElem _ _ hi'] at heq
  · intro h i _
    rw [h, remaining_self]

theorem Approaches.leadsOn {i port loc : ℕ} (hi : i < p.nDims)
    (h : p.Approaches i ((p.dimPosition r).getD i 0)
      ((p.dimPosition (dest / p.numCn)).getD i 0) port loc) :
    ∃ r', p.LeadsOn r dest port i r' := by
  obtain ⟨k, rfl, hk⟩ := h.link
  have hlt := p.dimPosition_lt r hi
  obtain ⟨hklt, hmem⟩ := List.getElem?_eq_some_iff.1 hk
  have hport : p.offsetPerDim i + k < p.offsetPerDim (i + 1) := by
    have hlen := length_neighbours_le hlt
    rw [offsetPerDim_succ]
    omega
  have hdim := dimOf_eq hi (Nat.le_add_right _ k) hport
  have hvalid : MixedRadix.Valid p.dimLength ((p.dimPosition r).set i loc) := by
    refine (p.valid_dimPosition r).set fun len hlen => ?_
    have hloc : loc ∈ p.neighbours i ((p.dimPosition r).getD i 0) := hmem ▸ List.getElem_mem hklt
    have hlt := List.mem_range.1 (List.mem_filter.1 hloc).1
    rwa [List.getD_eq_getElem?_getD, hlen] at hlt
  have hpos : p.dimPosition (toFlatId p.dimLength ((p.dimPosition r).set i loc)) =
      (p.dimPosition r).set i loc := by
    rw [dimPosition, toDimId_eq, toFlatId_eq]
    exact digits_value hvalid
  refine ⟨toFlatId p.dimLength ((p.dimPosition r).set i loc), hi, Nat.le_add_right _ k, hport,
    ?_, ?_, ⟨loc, hpos, h.between⟩, ?_⟩
  · have hnot : ¬ p.offsetPerDim i + k < p.numCn := by
      have := p.numCn_le_offsetPerDim i
      omega
    simp only [linkConnections, if_neg hnot, hdim, Option.bind_some, Nat.add_sub_cancel_left, hk,
      Option.map_some]
  · rw [toFlatId_eq]
    exact value_lt hvalid
  · rw [hopsLeft, hopsLeft, hpos]
    rw [← Finset.add_sum_erase _ _ (Finset.mem_range.2 hi),
      ← Finset.add_sum_erase _ _ (Finset.mem_range.2 hi)]
    have hself : ((p.dimPosition r).set i loc).getD i 0 = loc := by
      rw [List.getD_eq_getElem _ _ (by rwa [List.length_set, length_dimPosition]),
        List.getElem_set_self]
    have hrest : ∀ j ∈ (Finset.range p.nDims).erase i,
        p.remaining (((p.dimPosition r).set i loc).getD j 0)
            ((p.dimPosition (dest / p.numCn)).getD j 0) =
          p.remaining ((p.dimPosition r).getD j 0)
            ((p.dimPosition (dest / p.numCn)).getD j 0) := by
      intro j hj
      have hne : i ≠ j := (Finset.ne_of_mem_erase hj).symm
      rw [List.getD_eq_getElem?_getD, List.getElem?_set_ne hne, ← List.getD_eq_getElem?_getD]
    rw [Finset.sum_congr rfl hrest, hself, ← h.remaining]
    omega

end Param

/-! ### The choice of a port -/

/-- A chunk may leave by port `port`: by the one chosen or by that of the alternate queue. -/
def NextStop.Uses (stop : NextStop) (port : ℕ) : Prop :=
  port = stop.port ∨ stop.staticPort = some port

section

variable {s : Router} {msg : Msg} {stop : NextStop} {port : ℕ}

theorem getNextStop_uses (next : getNextStop p r s msg = some stop) (hport : stop.Uses port) :
    (∃ hop ∈ p.portOptions (p.dimPosition r) (p.dimPosition (msg.destTerminal / p.numCn)),
        port = hop.port) ∨
      p.portOptions (p.dimPosition r) (p.dimPosition (msg.destTerminal / p.numCn)) = [] ∧
        port = msg.destTerminal % p.numCn := by
  obtain ⟨src, -, rfl⟩ := Option.map_eq_some_iff.1 next
  generalize p.portOptions (p.dimPosition r) (p.dimPosition (msg.destTerminal / p.numCn)) =
    options at hport ⊢
  cases options with
  | nil =>
    refine .inr ⟨rfl, ?_⟩
    obtain rfl | hport := hport
    · rfl
    · cases hport
  | cons hop hops =>
    refine .inl ?_
    by_cases hstatic : p.routing = .static
    · simp only [NextStop.Uses, hstatic, if_true] at hport
      have hmem := (@Router.leastLoaded_mem s (hop :: hops) (List.range p.numVcs) (hop, 0)
        ⟨List.mem_cons_self, List.mem_range.2 p.numVcs_pos⟩).1
      obtain rfl | hport := hport
      · exact ⟨_, hmem, rfl⟩
      · cases hport
    · have hadaptive : p.routing = .adaptive := by
        cases hr : p.routing with
        | static => exact absurd hr hstatic
        | adaptive => rfl
      have hone := one_mem_drop (p.adaptive_vcs hadaptive)
      simp only [NextStop.Uses, hstatic, if_false] at hport
      obtain rfl | hport := hport
      · exact ⟨_, (@Router.leastLoaded_mem s (hop :: hops) _ (hop, 1)
          ⟨List.mem_cons_self, hone⟩).1, rfl⟩
      · rw [Option.ite_none_right_eq_some] at hport
        obtain rfl := Option.some.inj hport.2
        have hfirst : hop ∈ (hop :: hops).takeWhile fun h => h.dim = hop.dim := by
          rw [List.takeWhile_cons_of_pos (by simp)]
          exact List.mem_cons_self
        have hmem := (@Router.leastLoaded_mem s ((hop :: hops).takeWhile fun h => h.dim = hop.dim) _
          (hop, 1) ⟨hfirst, hone⟩).1
        exact ⟨_, List.takeWhile_subset _ hmem, rfl⟩

variable {pos dst : List ℕ}

theorem mem_differing {i : ℕ} :
    i ∈ p.differing pos dst ↔ i < p.nDims ∧ pos.getD i 0 ≠ dst.getD i 0 := by
  rw [Param.differing, List.mem_filter, List.mem_range, decide_eq_true_eq]

theorem exists_of_mem_portOptions {hop : NextHop}
    (h : hop ∈ p.portOptions pos dst) : ∃ i < p.nDims, pos.getD i 0 ≠ dst.getD i 0 ∧
      hop.port ∈ p.portsTowards i (pos.getD i 0) (dst.getD i 0) := by
  obtain ⟨i, hi, h⟩ := List.mem_flatMap.1 h
  obtain ⟨port, hport, rfl⟩ := List.mem_map.1 h
  have hmem : i ∈ p.differing pos dst := by
    split at hi
    · exact List.mem_of_mem_take hi
    · exact hi
  obtain ⟨hlt, hne⟩ := mem_differing.1 hmem
  exact ⟨i, hlt, hne, hport⟩

theorem differing_of_portOptions (h : p.portOptions pos dst = []) : p.differing pos dst = [] := by
  have hports (i x d : ℕ) : p.portsTowards i x d ≠ [] := by
    simp only [Param.portsTowards]
    split_ifs <;> simp
  rw [Param.portOptions, List.flatMap_eq_nil_iff] at h
  cases hd : p.differing pos dst with
  | nil => rfl
  | cons i dims =>
    rw [hd] at h
    refine absurd (h i ?_) (by simpa using hports _ _ _)
    split <;> simp

/-- **Every port chosen** leads on, or to the terminal at the router of the destination. -/
theorem leadsOn_of_uses (next : getNextStop p r s msg = some stop) (hport : stop.Uses port) :
    (∃ i r', p.LeadsOn r msg.destTerminal port i r') ∨
      p.dimPosition r = p.dimPosition (msg.destTerminal / p.numCn) ∧
        p.linkConnections r port = some (.terminal (r * p.numCn + msg.destTerminal % p.numCn)) := by
  obtain ⟨hop, hhop, rfl⟩ | ⟨hnil, rfl⟩ := getNextStop_uses next hport
  · obtain ⟨i, hi, hne, hmem⟩ := exists_of_mem_portOptions hhop
    obtain ⟨loc, hloc⟩ := Param.mem_portsTowards (p.dimPosition_lt r hi) (p.dimPosition_lt _ hi)
      hne hmem
    exact .inl ⟨i, hloc.leadsOn hi⟩
  · refine .inr ⟨?_, if_pos (Nat.mod_lt _ p.numCn_pos)⟩
    have hnone := differing_of_portOptions hnil
    rw [← Param.hopsLeft_eq_zero, Param.hopsLeft]
    refine Finset.sum_eq_zero fun i hi => Param.remaining_eq_zero.2 ?_
    by_contra hne
    have hmem := mem_differing.2 ⟨Finset.mem_range.1 hi, hne⟩
    rw [hnone] at hmem
    cases hmem

end

/-! ### Routes -/

variable (p) in
/-- A chunk for terminal `dest` may go from router `r` to router `r'`: `getNextStop` chooses a port
between them in some state and for some message. -/
def Hop (dest r r' : ℕ) : Prop :=
  ∃ s msg stop port, msg.destTerminal = dest ∧ getNextStop p r s msg = some stop ∧ stop.Uses port ∧
    p.linkConnections r port = some (.router r')

variable (p) in
/-- The routers `rs` after router `r` on a way to terminal `dest`. -/
def Route (dest r : ℕ) (rs : List ℕ) : Prop := (r :: rs).IsChain (Hop p dest)

theorem Hop.leadsOn (h : Hop p dest r r') : ∃ port i, p.LeadsOn r dest port i r' := by
  obtain ⟨s, msg, stop, port, rfl, next, hport, hlink⟩ := h
  obtain ⟨i, r'', hlead⟩ | ⟨-, hterm⟩ := leadsOn_of_uses next hport
  · rw [hlead.link] at hlink
    cases hlink
    exact ⟨port, i, hlead⟩
  · rw [hterm] at hlink
    cases hlink

theorem Hop.hopsLeft (h : Hop p dest r r') : p.hopsLeft r' dest + 1 = p.hopsLeft r dest := by
  obtain ⟨port, i, hlead⟩ := h.leadsOn
  exact hlead.hops

variable {rs : List ℕ}

/-- **The hops of a route** are those that are left at its start, but for those left at its end. -/
theorem Route.length_add (h : Route p dest r rs) :
    rs.length + p.hopsLeft (rs.getLastD r) dest = p.hopsLeft r dest := by
  have hstep : ∀ a b, Hop p dest a b → p.hopsLeft b dest + 1 = p.hopsLeft a dest :=
    fun _ _ => Hop.hopsLeft
  exact length_add_rank hstep h

theorem Route.length_le (h : Route p dest r rs) : rs.length ≤ p.nDims * p.gap := by
  have hlen := h.length_add
  have hle := p.hopsLeft_le r dest
  omega

theorem Route.getLastD_lt (h : Route p dest r rs) (hr : r < p.totalRouters) :
    rs.getLastD r < p.totalRouters := by
  induction rs generalizing r with
  | nil => exact hr
  | cons r' rs ih =>
    obtain ⟨hhop, htail⟩ := List.isChain_cons_cons.1 h
    obtain ⟨port, i, hlead⟩ := hhop.leadsOn
    rw [List.getLastD_cons]
    exact ih htail hlead.range

theorem Route.snoc (h : Route p dest r rs) (hhop : Hop p dest (rs.getLastD r) r') :
    Route p dest r (rs ++ [r']) := by
  induction rs generalizing r with
  | nil => exact .cons_cons hhop (.singleton _)
  | cons r₁ rs ih =>
    obtain ⟨hfirst, htail⟩ := List.isChain_cons_cons.1 h
    rw [List.getLastD_cons] at hhop
    exact .cons_cons hfirst (ih htail hhop)

/-- **Routes go on.**  Away from the router of the destination every choice leads on. -/
theorem exists_hop {s : Router} {msg : Msg} (hsrc : srcDimOf p msg ≠ none)
    (hr : r < p.totalRouters) (hdest : msg.destTerminal < p.totalTerminals)
    (hne : r ≠ msg.destTerminal / p.numCn) :
    ∃ stop, getNextStop p r s msg = some stop ∧ ∀ port, stop.Uses port →
      ∃ r', p.linkConnections r port = some (.router r') ∧ Hop p msg.destTerminal r r' := by
  obtain ⟨src, hsrc⟩ := Option.ne_none_iff_exists'.1 hsrc
  obtain ⟨stop, next⟩ : ∃ stop, getNextStop p r s msg = some stop := by
    rw [getNextStop, hsrc]
    exact ⟨_, rfl⟩
  refine ⟨stop, next, fun port hport => ?_⟩
  obtain ⟨i, r', hlead⟩ | ⟨hpos, -⟩ := leadsOn_of_uses next hport
  · exact ⟨r', hlead.link, s, msg, stop, port, rfl, next, hport, hlead.link⟩
  · refine absurd (Param.dimPosition_inj hr ?_ hpos) hne
    rwa [Nat.div_lt_iff_lt_mul p.numCn_pos]

end CodesSim.Mesh
