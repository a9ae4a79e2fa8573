import CodesSim.Lib.Trail
import CodesSim.Torus.Coords

/-!
# Dimension-order routing is minimal

`torus_init` gives a node its coordinates and, for each dimension, the nodes below and above it
(`Place.init`).  `Place.route` is `dimension_order_routing` with everything it returns: the
dimension, the direction and the node of the next hop.  That node is the neighbour in this
dimension and direction (`route_eq`), and the hop brings the packet one closer to its destination,
where the distance of two nodes is the sum over the dimensions of the shorter way around the ring
(`distance_dor`).  So the packet takes as many hops as that sum, which is the least number of hops
there is (`distance_le_length`).
-/

namespace CodesSim.Torus

/-! ### The routing function as a node calls it -/

/-- What `torus_init` computes for a node: its coordinates, and its neighbours by dimension. -/
structure Place where
  (dimPosition neighbourMinus neighbourPlus : List ℕ)

/-- The part of `torus_init` that places the node `node`. -/
def Place.init (lens : List ℕ) (node : ℕ) : Place where
  dimPosition := toDimId node lens
  neighbourMinus := (List.range lens.length).map (Torus.neighbourMinus lens node)
  neighbourPlus := (List.range lens.length).map (Torus.neighbourPlus lens node)

/-- One round of the loop of `dimension_order_routing`: the node and the direction that the branch
taken sets. -/
def Place.round (s : Place) (lens dest : List ℕ) (i : ℕ) : Option (ℕ × ℕ) :=
  let diff : ℤ := s.dimPosition.getD i 0 - dest.getD i 0
  let half : ℤ := (lens.getD i 1 / 2 : ℕ)
  if diff > half then some (s.neighbourPlus.getD i 0, 1)
  else if diff < -half then some (s.neighbourMinus.getD i 0, 0)
  else if diff ≤ half ∧ diff > 0 then some (s.neighbourMinus.getD i 0, 0)
  else if diff ≥ -half ∧ diff < 0 then some (s.neighbourPlus.getD i 0, 1)
  else none

/-- `dimension_order_routing`: the dimension, the direction and the node of the next hop; `none` is
the failed assertion. -/
def Place.route (s : Place) (lens : List ℕ) (dest : ℕ) : Option (ℕ × ℕ × ℕ) :=
  (List.range lens.length).findSome? fun i =>
    (s.round lens (toDimId dest lens) i).map fun (next, dir) => (i, dir, next)

/-- The node that `torus_init` placed on the port of a dimension and a direction. -/
def Place.port (s : Place) (dim dir : ℕ) : ℕ :=
  if dir = 1 then s.neighbourPlus.getD dim 0 else s.neighbourMinus.getD dim 0

theorem port_init {lens : List ℕ} {dim : ℕ} (h : dim < lens.length) (node dir : ℕ) :
    (Place.init lens node).port dim dir = neighbour lens node dim dir := by
  simp [Place.port, Place.init, neighbour, List.getD_eq_getElem?_getD, h]

theorem round_eq (s : Place) (lens dest : List ℕ) (i : ℕ) :
    s.round lens dest i = (dorDir (lens.getD i 1) (s.dimPosition.getD i 0) (dest.getD i 0)).map
      fun dir => (s.port i dir, dir) := by
  simp only [Place.round, dorDir, Place.port]
  split_ifs <;> rfl

theorem dorScan_eq (i : ℕ) {lens xs ys : List ℕ} (hxs : xs.length = lens.length)
    (hys : ys.length = lens.length) :
    dorScan i lens xs ys = (List.range lens.length).findSome? fun k =>
      (dorDir (lens.getD k 1) (xs.getD k 0) (ys.getD k 0)).map fun dir => (i + k, dir) := by
  induction lens generalizing i xs ys with
  | nil => simp [dorScan]
  | cons len lens ih =>
    obtain ⟨x, xs, rfl⟩ := List.exists_cons_of_length_eq_add_one hxs
    obtain ⟨y, ys, rfl⟩ := List.exists_cons_of_length_eq_add_one hys
    rw [dorScan, List.length_cons, List.range_succ_eq_map, List.findSome?_cons]
    cases hd : dorDir len x y with
    | some dir => simp [hd]
    | none =>
      simp only [List.getD_cons_zero, hd, Option.map_none, List.findSome?_map, Function.comp_def,
        List.getD_cons_succ]
      rw [ih (i + 1) (by simpa using hxs) (by simpa using hys)]
      simp only [Nat.succ_eq_add_one, Nat.add_assoc, Nat.add_comm 1]

/-- **The node of the next hop is on the port of its dimension and direction.** -/
theorem route_eq {lens : List ℕ} (hlens : Lengths lens) (node dest : ℕ) :
    (Place.init lens node).route lens dest = (dimensionOrderRouting lens node dest).map
      fun (dim, dir) => (dim, dir, neighbour lens node dim dir) := by
  rw [dimensionOrderRouting, dorScan_eq 0 (inTorus_toDimId hlens.one_le node).length_eq
    (inTorus_toDimId hlens.one_le dest).length_eq, Place.route, List.map_findSome?]
  rw [← List.head?_filterMap, ← List.head?_filterMap]
  refine congrArg List.head? (List.filterMap_congr fun i hi => ?_)
  rw [round_eq, Function.comp_apply, Option.map_map, Option.map_map]
  refine congrArg (Option.map · _) (funext fun dir => ?_)
  rw [Function.comp_apply, Function.comp_apply, port_init (List.mem_range.1 hi), Nat.zero_add]

/-! ### Distances -/

/-- The length of the shorter way between two positions of a ring. -/
def ringDistance (len x y : ℕ) : ℕ :=
  let d := ((x : ℤ) - y).natAbs
  min d (len - d)

/-- The distance of two points of the torus: the sum over the dimensions. -/
def coordDistance : List ℕ → List ℕ → List ℕ → ℕ
  | len :: lens, x :: xs, y :: ys => ringDistance len x y + coordDistance lens xs ys
  | _, _, _ => 0

/-- The distance of two nodes. -/
def distance (lens : List ℕ) (node dest : ℕ) : ℕ :=
  coordDistance lens (toDimId node lens) (toDimId dest lens)

theorem ringDistance_pos {len x y : ℕ} (hx : x < len) (hy : y < len) :
    0 < ringDistance len x y ↔ x ≠ y := by
  simp only [ringDistance]
  omega

/-- The step that `dimension_order_routing` chooses shortens the way by one. -/
theorem ringDistance_dorDir {len x y dir : ℕ} (hx : x < len) (hy : y < len)
    (h : dorDir len x y = some dir) :
    ringDistance len ((x + stepOf len dir) % len) y + 1 = ringDistance len x y := by
  simp only [ringDistance]
  obtain ⟨-, h'⟩ | ⟨hlt, h'⟩ | ⟨hlt, h'⟩ := dorDir_cases len x y
  · simp [h'] at h
  · obtain rfl : 0 = dir := Option.some.inj (h'.symm.trans h)
    rw [mod_stepOf_zero hx]
    split_ifs with h0 <;> omega
  · obtain rfl : 1 = dir := Option.some.inj (h'.symm.trans h)
    rw [mod_stepOf_one hx]
    split_ifs with h0 <;> omega

theorem ringDistance_le_step {len x y : ℕ} (hx : x < len) (hy : y < len) (dir : ℕ) :
    ringDistance len x y ≤ ringDistance len ((x + stepOf len dir) % len) y + 1 := by
  simp only [ringDistance]
  by_cases hdir : dir = 1
  · rw [hdir, mod_stepOf_one hx]
    split_ifs with h0 <;> omega
  · rw [show stepOf len dir = stepOf len 0 by simp [stepOf, hdir], mod_stepOf_zero hx]
    split_ifs with h0 <;> omega

theorem coordDistance_eq_zero {lens xs ys : List ℕ} (hxs : InTorus lens xs)
    (hys : InTorus lens ys) (h : coordDistance lens xs ys = 0) : xs = ys := by
  induction hxs generalizing ys with
  | nil => cases hys; rfl
  | @cons x len xs lens hx _ ih =>
    cases hys with
    | @cons y _ ys _ hy hys =>
      rw [coordDistance] at h
      have hxy : ¬ 0 < ringDistance len x y := by omega
      rw [ringDistance_pos hx hy, not_not] at hxy
      rw [hxy, ih hys (by omega)]

theorem coordDistance_dorScan {i j dir : ℕ} {lens xs ys : List ℕ} (hxs : InTorus lens xs)
    (hys : InTorus lens ys) (h : dorScan i lens xs ys = some (j, dir)) :
    coordDistance lens (xs.set (j - i)
      ((xs.getD (j - i) 0 + stepOf (lens.getD (j - i) 1) dir) % lens.getD (j - i) 1)) ys + 1 =
        coordDistance lens xs ys := by
  induction hxs generalizing i ys with
  | nil => simp [dorScan] at h
  | @cons x len xs lens hx _ ih =>
    cases hys with
    | @cons y _ ys _ hy hys =>
      rw [dorScan] at h
      cases hd : dorDir len x y with
      | some d =>
        simp only [hd, Option.some.injEq, Prod.mk.injEq] at h
        obtain ⟨rfl, rfl⟩ := h
        have := ringDistance_dorDir hx hy hd
        simp only [Nat.sub_self, List.set_cons_zero, List.getD_cons_zero, coordDistance]
        omega
      | none =>
        simp only [hd] at h
        have hj : j - i = j - (i + 1) + 1 := by
          have := (dorScan_lt h).1
          omega
        have := ih hys h
        rw [hj, List.set_cons_succ, List.getD_cons_succ, List.getD_cons_succ, coordDistance,
          coordDistance]
        omega

theorem coordDistance_le_set {lens xs ys : List ℕ} (hxs : InTorus lens xs)
    (hys : InTorus lens ys) (j dir : ℕ) :
    coordDistance lens xs ys ≤ coordDistance lens (xs.set j
      ((xs.getD j 0 + stepOf (lens.getD j 1) dir) % lens.getD j 1)) ys + 1 := by
  induction hxs generalizing ys j with
  | nil => simp [coordDistance]
  | @cons x len xs lens hx _ ih =>
    cases hys with
    | @cons y _ ys _ hy hys =>
      cases j with
      | zero =>
        have := ringDistance_le_step hx hy dir
        simp only [List.set_cons_zero, List.getD_cons_zero, coordDistance]
        omega
      | succ j =>
        have := ih hys j
        simp only [List.set_cons_succ, List.getD_cons_succ, coordDistance]
        omega

variable {lens : List ℕ} {node dest dim dir : ℕ}

theorem distance_dor (hlens : Lengths lens)
    (h : dimensionOrderRouting lens node dest = some (dim, dir)) :
    distance lens (neighbour lens node dim dir) dest + 1 = distance lens node dest := by
  rw [distance, toDimId_neighbour hlens]
  exact coordDistance_dorScan (inTorus_toDimId hlens.one_le node)
    (inTorus_toDimId hlens.one_le dest) h

theorem distance_le_neighbour (hlens : Lengths lens) (node dest dim dir : ℕ) :
    distance lens node dest ≤ distance lens (neighbour lens node dim dir) dest + 1 := by
  rw [distance, distance, toDimId_neighbour hlens]
  exact coordDistance_le_set (inTorus_toDimId hlens.one_le node)
    (inTorus_toDimId hlens.one_le dest) dim dir

theorem eq_of_distance_eq_zero (hlens : Lengths lens) (hn : node < numNodes lens)
    (hd : dest < numNodes lens) (h : distance lens node dest = 0) : node = dest := by
  have := coordDistance_eq_zero (inTorus_toDimId hlens.one_le node)
    (inTorus_toDimId hlens.one_le dest) h
  rw [← toFlatId_toDimId hlens hn, this, toFlatId_toDimId hlens hd]

theorem coordDistance_self (lens xs : List ℕ) : coordDistance lens xs xs = 0 := by
  induction lens generalizing xs with
  | nil => rfl
  | cons len lens ih =>
    cases xs with
    | nil => rfl
    | cons x xs => simp [coordDistance, ringDistance, ih]

@[simp] theorem distance_self (lens : List ℕ) (node : ℕ) : distance lens node node = 0 :=
  coordDistance_self _ _

/-- The node at the end of a walk along given dimensions and directions. -/
def walk (lens : List ℕ) : ℕ → List (ℕ × ℕ) → ℕ
  | node, [] => node
  | node, (dim, dir) :: hops => walk lens (neighbour lens node dim dir) hops

theorem distance_le_length (hlens : Lengths lens) (node : ℕ) (hops : List (ℕ × ℕ)) :
    distance lens node (walk lens node hops) ≤ hops.length := by
  induction hops generalizing node with
  | nil => simp [walk]
  | cons hop hops ih =>
    obtain ⟨dim, dir⟩ := hop
    have h1 := distance_le_neighbour hlens node (walk lens node ((dim, dir) :: hops)) dim dir
    have h2 := ih (neighbour lens node dim dir)
    rw [walk] at h1 ⊢
    rw [List.length_cons]
    omega

/-! ### The path of a packet -/

/-- One hop towards a node: the dimension and the direction, and the node of the next hop. -/
def hop (lens : List ℕ) (dest node : ℕ) : Option ((ℕ × ℕ) × ℕ) :=
  ((Place.init lens node).route lens dest).map fun (dim, dir, next) => ((dim, dir), next)

/-- `n` hops towards a node, from `node` on: the dimension and the direction of each hop, and the
node at the end. -/
def follow (lens : List ℕ) (dest n node : ℕ) : Option (List (ℕ × ℕ) × ℕ) :=
  trail (hop lens dest) n node

theorem hop_eq_some (hlens : Lengths lens) {next : ℕ} :
    hop lens dest node = some ((dim, dir), next) ↔
      dimensionOrderRouting lens node dest = some (dim, dir) ∧
        next = neighbour lens node dim dir := by
  rw [hop, route_eq hlens, Option.map_map, Option.map_eq_some_iff]
  constructor
  · rintro ⟨⟨dim', dir'⟩, h, heq⟩
    simp only [Function.comp_apply, Prod.mk.injEq] at heq
    obtain ⟨⟨rfl, rfl⟩, rfl⟩ := heq
    exact ⟨h, rfl⟩
  · rintro ⟨h, rfl⟩
    exact ⟨(dim, dir), h, rfl⟩

theorem hop_descends (hlens : Lengths lens) (hd : dest < numNodes lens) :
    Descends (hop lens dest) (· < numNodes lens) (distance lens · dest) := by
  intro node hn hpos
  have hne : node ≠ dest := by
    rintro rfl
    simp at hpos
  obtain ⟨dim, dir, h⟩ := dor_isSome hlens hn hd hne
  exact ⟨(dim, dir), neighbour lens node dim dir, (hop_eq_some hlens).2 ⟨h, rfl⟩,
    neighbour_lt hlens node dim dir, distance_dor hlens h⟩

/-- The order of two hops of a packet: dimensions do not go down, and the direction stays the same
inside a dimension. -/
def HopOrder (a b : ℕ × ℕ) : Prop := a.1 ≤ b.1 ∧ (a.1 = b.1 → a.2 = b.2)

theorem HopOrder.trans (a b c : ℕ × ℕ) (hab : HopOrder a b) (hbc : HopOrder b c) :
    HopOrder a c := by
  obtain ⟨hab, hab'⟩ := hab
  obtain ⟨hbc, hbc'⟩ := hbc
  exact ⟨hab.trans hbc, fun h => (hab' (by omega)).trans (hbc' (by omega))⟩

theorem follow_pairwise (hlens : Lengths lens) {n e : ℕ} {hops : List (ℕ × ℕ)}
    (h : follow lens dest n node = some (hops, e)) : hops.Pairwise HopOrder := by
  refine trail_pairwise HopOrder.trans ?_ h
  rintro node ⟨dim, dir⟩ next ⟨dim', dir'⟩ next' h h'
  obtain ⟨hdor, rfl⟩ := (hop_eq_some hlens).1 h
  obtain ⟨hdor', -⟩ := (hop_eq_some hlens).1 h'
  rcases dor_neighbour hlens hdor hdor' with hlt | ⟨rfl, rfl⟩
  · exact ⟨hlt.le, fun heq => absurd heq (Nat.ne_of_lt hlt)⟩
  · exact ⟨le_refl _, fun _ => rfl⟩

/-- **Dimension-order routing is minimal.**  From every node, following the routing function leads
to the destination in as many hops as their distance, and not earlier; the dimensions come in
increasing order, the direction does not change inside a dimension, and no shorter walk exists.
The node of a hop is the one on the port of its dimension and direction, and nodes and coordinates
are in bijection. -/
theorem dor_minimal (lens : List ℕ) (hlens : Lengths lens) :
    (∀ node dest, node < numNodes lens → dest < numNodes lens → node ≠ dest →
      (∃ hops, follow lens dest (distance lens node dest) node = some (hops, dest) ∧
        hops.length = distance lens node dest ∧ hops.Pairwise HopOrder) ∧
      (∀ n < distance lens node dest, ∃ hops mid,
        follow lens dest n node = some (hops, mid) ∧ mid ≠ dest ∧
          ((Place.init lens mid).route lens dest).isSome) ∧
      ∀ hops, walk lens node hops = dest → distance lens node dest ≤ hops.length) ∧
    (∀ node dest dim dir next, (Place.init lens node).route lens dest = some (dim, dir, next) →
      dim < lens.length ∧ dir < 2 ∧ next = (Place.init lens node).port dim dir ∧
        toDimId next lens = (toDimId node lens).set dim
          (((toDimId node lens).getD dim 0 + stepOf (lens.getD dim 1) dir) % lens.getD dim 1)) ∧
    (∀ node < numNodes lens, InTorus lens (toDimId node lens) ∧
      toFlatId lens (toDimId node lens) = node) ∧
    ∀ coords, InTorus lens coords → toFlatId lens coords < numNodes lens ∧
      toDimId (toFlatId lens coords) lens = coords := by
  refine ⟨fun node dest hn hd hne => ⟨?_, fun n hlt => ?_, ?_⟩, ?_, ?_, ?_⟩
  · obtain ⟨hops, e, h, he, hrank⟩ := (hop_descends hlens hd).trail_eq hn le_rfl
    obtain rfl : e = dest := eq_of_distance_eq_zero hlens he hd (by omega)
    exact ⟨hops, h, trail_length h, follow_pairwise hlens h⟩
  · obtain ⟨hops, mid, h, hmid, hrank⟩ := (hop_descends hlens hd).trail_eq hn hlt.le
    have hne : mid ≠ dest := by
      rintro rfl
      rw [distance_self] at hrank
      omega
    obtain ⟨dim, dir, hdor⟩ := dor_isSome hlens hmid hd hne
    exact ⟨hops, mid, h, hne, by rw [route_eq hlens, hdor]; rfl⟩
  · rintro hops rfl
    exact distance_le_length hlens node hops
  · intro node dest dim dir next h
    rw [route_eq hlens] at h
    obtain ⟨⟨dim', dir'⟩, hdor, heq⟩ := Option.map_eq_some_iff.1 h
    simp only [Prod.mk.injEq] at heq
    obtain ⟨rfl, rfl, rfl⟩ := heq
    obtain ⟨hdim, hdir⟩ := dor_lt hdor
    exact ⟨hdim, hdir, (port_init hdim node _).symm, toDimId_neighbour hlens node _ _⟩
  · exact fun node hn => ⟨inTorus_toDimId hlens.one_le node, toFlatId_toDimId hlens hn⟩
  · exact fun coords h => ⟨toFlatId_lt hlens h, toDimId_toFlatId hlens h⟩

/-- Two ways lead from the first node half around a ring of length 4: a tie. -/
theorem dor_minimal_twelveNodes :
    Lengths [4, 1, 3] ∧
      ∃ hops, follow [4, 1, 3] 6 3 0 = some (hops, 6) ∧ hops.length = 3 ∧
        hops.Pairwise HopOrder :=
  have hlens : Lengths [4, 1, 3] := ⟨by decide, by decide, by decide⟩
  ⟨hlens, ((dor_minimal [4, 1, 3] hlens).1 0 6 (by decide) (by decide) (by decide)).1⟩

/-- In a ring of 1 500 000 000 nodes the position of the next node is computed with an overflow, and
the hop does not lead there. -/
theorem longRing_hop_astray :
    distance [1500000000] 1000000000 1000000001 = 1 ∧
    ∃ hops node, follow [1500000000] 1000000001 1 1000000000 = some (hops, node) ∧
      node ≠ 1000000001 ∧ numNodes [1500000000] ≤ node := by
  refine ⟨by decide +kernel, [(0, 1)], 4000000001, ?_, ?_, ?_⟩
  · decide +kernel
  · decide
  · decide

end CodesSim.Torus
