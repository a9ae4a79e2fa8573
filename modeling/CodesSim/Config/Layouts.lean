import CodesSim.Config.NoSilentDrop

/-!
# The layout of a fabric

How many LPs a fabric has (`compileFabric_exact_iff`).  The numbers of a shape are `long`s of any
size, and what `compile_fabric` checks is the layout computed from them with the arithmetic of
`long`s, so that of a layout that is too large something else may be left that looks right.  What is
emitted is read as a `long` again and stored as an `int`.

* `formula` has the counts of each model as exact integers, and the results on the way to them.
* `derive_wraps` : a derived layout is the exact one modulo `2 ^ 64`.  The only product that
  is guarded is that of the lengths of a mesh.
-/

namespace CodesSim.Config

open CodesMapping Outcome

/-! ### The exact counts -/

/-- The exact layout of a shape, and every sum and product on the way to it. -/
structure Formula where
  (repetitions terminalsPerRep routersPerRep : ℤ)
  steps : List ℤ

/-- The number of a shape under a key, or 1. -/
def shapeNum (shape : KvList) (key : CStr) : ℤ :=
  match shapeIntDefault shape key 1 with
  | .ok n => n
  | .error _ => 1

/-- The lengths of a mesh. -/
def shapeDims (shape : KvList) : List ℤ :=
  match parseDimLengths shape "dim_length" with
  | .ok dims => dims
  | .error _ => []

/-- The products of the first lengths. -/
def firstProducts (dims : List ℤ) : List ℤ := dims.scanl (· * ·) 1

/-- The formula of a fabric model. -/
def formula (shape : KvList) (model : CStr) : Formula :=
  let num := shapeNum shape
  let numRouters := num "num_routers"
  let numGroups := num "num_groups"
  let numCns := num "num_cns_per_router"
  if model = "dragonfly" then
    let numCn := numRouters.tdiv 2
    ⟨(numRouters * numCn + 1) * numRouters, numCn, 1,
      [numRouters * numCn, numRouters * numCn + 1]⟩
  else if model = "dragonfly-dally" then
    let numPlanes := num "num_planes"
    ⟨numGroups * numPlanes * numRouters, numCns, 1, [numGroups * numPlanes]⟩
  else if model = "fattree" then
    ⟨num "switch_count", (num "switch_radix").tdiv 2, num "num_levels", []⟩
  else if model = "torus" then
    ⟨(shapeDims shape).prod, 1, 0, firstProducts (shapeDims shape)⟩
  else if model = "express-mesh" then
    ⟨(shapeDims shape).prod, num "num_cn", 1, firstProducts (shapeDims shape)⟩
  else if model = "slimfly" then
    ⟨2 * numRouters * numRouters, num "num_terminals", 1, [2 * numRouters]⟩
  else if model = "dragonfly-plus" then
    let leaf := num "num_router_leaf"
    ⟨numGroups, leaf * numCns, num "num_router_spine" + leaf, []⟩
  else
    let rows := num "num_router_rows"
    ⟨numGroups * rows * num "num_router_cols", numCns, 1, [numGroups * rows]⟩

/-- A `long`. -/
def FitsLong (n : ℤ) : Prop := -2 ^ 63 ≤ n ∧ n ≤ 2 ^ 63 - 1

theorem FitsLong.wrapLong_eq {n : ℤ} (h : FitsLong n) : wrapLong n = n :=
  Int.bmod_eq_of_le (by have := h.1; omega) (by have := h.2; omega)

theorem fitsLong_one : FitsLong 1 := ⟨by decide, by decide⟩

theorem fitsLong_wrapLong (n : ℤ) : FitsLong (wrapLong n) := by
  have hle := Int.le_bmod (x := n) (m := 2 ^ 64) (by decide)
  have hlt := Int.bmod_lt (x := n) (m := 2 ^ 64) (by decide)
  rw [FitsLong, wrapLong]
  omega

theorem wrapInt_eq_iff {n : ℤ} : wrapInt n = n ↔ -2 ^ 31 ≤ n ∧ n ≤ 2 ^ 31 - 1 := by
  rw [wrapInt]
  constructor
  · intro h
    have hle := Int.le_bmod (x := n) (m := 2 ^ 32) (by decide)
    have hlt := Int.bmod_lt (x := n) (m := 2 ^ 32) (by decide)
    omega
  · exact fun h => Int.bmod_eq_of_le (by omega) (by omega)

namespace Formula

/-- The counts are what `int`s can be, and the layout is not degenerate. -/
structure InRange (f : Formula) : Prop where
  repetitions : 1 ≤ f.repetitions ∧ f.repetitions ≤ 2 ^ 31 - 1
  terminalsPerRep : 1 ≤ f.terminalsPerRep ∧ f.terminalsPerRep ≤ 2 ^ 31 - 1
  routersPerRep : 0 ≤ f.routersPerRep ∧ f.routersPerRep ≤ 2 ^ 31 - 1

/-- A layout is the exact one modulo `2 ^ 64`, and if that is in range, so is what is computed on
the way to it. -/
structure Wraps (f : Formula) (lay : Layout) : Prop where
  repetitions : lay.repetitions = wrapLong f.repetitions
  terminalsPerRep : lay.terminalsPerRep = wrapLong f.terminalsPerRep
  routersPerRep : lay.routersPerRep = wrapLong f.routersPerRep
  steps : f.InRange → ∀ v ∈ f.steps, FitsLong v

end Formula

/-! ### The numbers of a shape -/

theorem fitsLong_strtol (text : CStr) : FitsLong (strtol text).1 := by
  rw [strtol, FitsLong]
  split_ifs <;> dsimp only <;> omega

theorem parseIntStrict_fits {s what : CStr} {n : ℤ} (h : parseIntStrict s what = .ok n) :
    FitsLong n := by
  rw [parseIntStrict] at h
  obtain ⟨-, h⟩ := guard_eq_ok h
  cases h
  exact fitsLong_strtol _

variable {shape : KvList} {key : CStr} {n : ℤ}

theorem shapeInt_eq (h : shapeInt shape key = .ok n) : shapeNum shape key = n ∧ FitsLong n := by
  rw [shapeInt] at h
  obtain ⟨text, htext, h⟩ := bind_eq_ok h
  refine ⟨?_, parseIntStrict_fits h⟩
  rw [shapeStr] at htext
  rw [shapeNum, shapeIntDefault]
  split at htext
  · rename_i kv hkv
    cases htext
    rw [h]
  · cases htext

theorem shapeIntDefault_eq (h : shapeIntDefault shape key 1 = .ok n) :
    shapeNum shape key = n ∧ FitsLong n := by
  refine ⟨by rw [shapeNum, h], ?_⟩
  rw [shapeIntDefault] at h
  split at h
  · exact parseIntStrict_fits h
  · cases h
    exact ⟨by decide, by decide⟩

/-! ### Meshes -/

theorem dimLengths_pos {text : CStr} {dims : List ℤ} (h : dimLengths text = some dims) :
    ∀ d ∈ dims, 1 ≤ d := by
  fun_induction dimLengths text generalizing dims with
  | case1 text hbad => cases h
  | case2 text hgood hend =>
    cases h
    intro d hd
    rw [List.mem_singleton.1 hd]
    exact Int.lt_of_not_ge fun hle => hgood (.inr (.inr hle))
  | case3 text hgood rest hcomma ih =>
    obtain ⟨dims', hdims', rfl⟩ := Option.map_eq_some_iff.1 h
    intro d hd
    rcases List.mem_cons.1 hd with rfl | hd
    · exact Int.lt_of_not_ge fun hle => hgood (.inr (.inr hle))
    · exact ih hdims' d hd
  | case4 => cases h

theorem foldlM_dimProduct {dims : List ℤ} (hpos : ∀ d ∈ dims, 1 ≤ d) {prod out : ℤ}
    (hprod : 1 ≤ prod)
    (hlong : FitsLong prod)
    (h : dims.foldlM (fun prod d => if prod > (2 ^ 63 - 1) / d then none else some (prod * d))
      prod = some out) :
    out = prod * dims.prod ∧ FitsLong out ∧ ∀ v ∈ dims.scanl (· * ·) prod, FitsLong v := by
  induction dims generalizing prod with
  | nil =>
    cases h
    rw [List.prod_nil, Int.mul_one, List.scanl_nil]
    exact ⟨rfl, hlong, fun v hv => List.mem_singleton.1 hv ▸ hlong⟩
  | cons d dims ih =>
    rw [List.foldlM_cons] at h
    obtain ⟨next, hnext, h⟩ := Option.bind_eq_some_iff.1 h
    have hd := hpos d List.mem_cons_self
    split at hnext
    · cases hnext
    · rename_i hguard
      cases hnext
      have hle : prod * d ≤ 2 ^ 63 - 1 := (Int.le_ediv_iff_mul_le (by omega)).1 (by omega)
      have hone : 1 ≤ prod * d := Int.mul_le_mul hprod hd (by omega) (by omega)
      have hfits : FitsLong (prod * d) := ⟨by omega, hle⟩
      obtain ⟨rfl, hout, hsteps⟩ := ih (fun e he => hpos e (List.mem_cons_of_mem _ he)) hone hfits h
      refine ⟨by rw [List.prod_cons, Int.mul_assoc], hout, fun v hv => ?_⟩
      rw [List.scanl_cons] at hv
      rcases List.mem_cons.1 hv with rfl | hv
      · exact hlong
      · exact hsteps v hv

theorem meshNodeCount_eq {modelName : CStr} (h : meshNodeCount shape modelName = .ok n) :
    n = (shapeDims shape).prod ∧ FitsLong n ∧ ∀ v ∈ firstProducts (shapeDims shape),
    FitsLong v := by
  rw [meshNodeCount] at h
  obtain ⟨nDims, -, h⟩ := bind_eq_ok h
  obtain ⟨dims, hdims, h⟩ := bind_eq_ok h
  obtain ⟨-, h⟩ := guard_eq_ok h
  rw [shapeDims, hdims]
  split at h
  · cases h
  · rename_i prod hprod
    cases h
    have hpos : ∀ d ∈ dims, 1 ≤ d := by
      rw [parseDimLengths] at hdims
      obtain ⟨s, -, hdims⟩ := bind_eq_ok hdims
      split at hdims
      · rename_i dims' hdims'
        cases hdims
        exact dimLengths_pos hdims'
      · cases hdims
    rw [dimProduct] at hprod
    obtain ⟨heq, hout, hsteps⟩ := foldlM_dimProduct hpos (by decide) fitsLong_one hprod
    exact ⟨by rw [heq, Int.one_mul], hout, hsteps⟩

/-! ### The models -/

theorem fitsLong_of_mul {a b : ℤ} (h : 1 ≤ a * b ∧ a * b ≤ 2 ^ 31 - 1) : FitsLong a := by
  have hle : a ≤ a * b := Int.le_of_dvd (by omega) ⟨b, rfl⟩
  have hneg : -a ≤ a * b := Int.le_of_dvd (by omega) ⟨-b, by rw [Int.neg_mul_neg]⟩
  exact ⟨by omega, by omega⟩

theorem fitsLong_half {a : ℤ} (h : FitsLong a) : FitsLong (a.tdiv 2) := by
  have habs : (a.tdiv 2).natAbs = a.natAbs / 2 := Int.natAbs_tdiv a 2
  rw [FitsLong] at h ⊢
  omega

theorem wrapLong_wrapLong_mul (a b : ℤ) : wrapLong (wrapLong a * b) = wrapLong (a * b) :=
  Int.bmod_mul_bmod

theorem wrapLong_wrapLong_add (a b : ℤ) : wrapLong (wrapLong a + b) = wrapLong (a + b) :=
  Int.bmod_add_bmod

variable {lay : Layout}

theorem deriveDragonfly_wraps (h : deriveDragonfly shape = .ok lay) :
    (formula shape "dragonfly").Wraps lay := by
  rw [deriveDragonfly] at h
  obtain ⟨numRouters, hrouters, h⟩ := bind_eq_ok h
  obtain ⟨hpos, h⟩ := guard_eq_ok h
  obtain ⟨hnum, hlong⟩ := shapeInt_eq hrouters
  cases h
  rw [formula, if_pos rfl, hnum]
  refine ⟨?_, (fitsLong_half hlong).wrapLong_eq.symm, fitsLong_one.wrapLong_eq.symm,
    fun hf v hv => ?_⟩
  · rw [wrapLong_wrapLong_mul, ← wrapLong_wrapLong_mul, wrapLong_wrapLong_add,
      wrapLong_wrapLong_mul]
  · have hgroups := fitsLong_of_mul hf.repetitions
    have hterms : 0 ≤ numRouters * numRouters.tdiv 2 :=
      Int.mul_nonneg (by omega) (Int.tdiv_nonneg (by omega) (by decide))
    rcases List.mem_cons.1 hv with rfl | hv
    · exact ⟨by omega, by have := hgroups.2; omega⟩
    · exact List.mem_singleton.1 hv ▸ hgroups

theorem deriveDragonflyDally_wraps (h : deriveDragonflyDally shape = .ok lay) :
    (formula shape "dragonfly-dally").Wraps lay := by
  rw [deriveDragonflyDally] at h
  obtain ⟨numRouters, hrouters, h⟩ := bind_eq_ok h
  obtain ⟨numGroups, hgroups, h⟩ := bind_eq_ok h
  obtain ⟨numCns, hcns, h⟩ := bind_eq_ok h
  obtain ⟨numPlanes, hplanes, h⟩ := bind_eq_ok h
  obtain ⟨-, -, h⟩ := bind_eq_ok h
  cases h
  rw [formula, if_neg (by decide), if_pos rfl, (shapeInt_eq hrouters).1, (shapeInt_eq hgroups).1,
    (shapeInt_eq hcns).1, (shapeIntDefault_eq hplanes).1]
  refine ⟨wrapLong_wrapLong_mul _ _, (shapeInt_eq hcns).2.wrapLong_eq.symm,
    fitsLong_one.wrapLong_eq.symm, fun hf v hv => ?_⟩
  rw [List.mem_singleton.1 hv]
  exact fitsLong_of_mul hf.repetitions

theorem deriveFattree_wraps (h : deriveFattree shape = .ok lay) :
    (formula shape "fattree").Wraps lay := by
  rw [deriveFattree] at h
  obtain ⟨switchCount, hcount, h⟩ := bind_eq_ok h
  obtain ⟨switchRadix, hradix, h⟩ := bind_eq_ok h
  obtain ⟨numLevels, hlevels, h⟩ := bind_eq_ok h
  obtain ⟨-, h⟩ := guard_eq_ok h
  cases h
  rw [formula, if_neg (by decide), if_neg (by decide), if_pos rfl, (shapeInt_eq hcount).1,
    (shapeInt_eq hradix).1, (shapeInt_eq hlevels).1]
  exact ⟨(shapeInt_eq hcount).2.wrapLong_eq.symm,
    (fitsLong_half (shapeInt_eq hradix).2).wrapLong_eq.symm,
    (shapeInt_eq hlevels).2.wrapLong_eq.symm, fun _ _ hv => nomatch hv⟩

theorem deriveTorus_wraps (h : deriveTorus shape = .ok lay) :
    (formula shape "torus").Wraps lay := by
  rw [deriveTorus] at h
  obtain ⟨nodes, hnodes, h⟩ := bind_eq_ok h
  obtain ⟨rfl, hlong, hsteps⟩ := meshNodeCount_eq hnodes
  cases h
  rw [formula, if_neg (by decide), if_neg (by decide), if_neg (by decide), if_pos rfl]
  exact ⟨hlong.wrapLong_eq.symm, rfl, rfl, fun _ => hsteps⟩

theorem deriveExpressMesh_wraps (h : deriveExpressMesh shape = .ok lay) :
    (formula shape "express-mesh").Wraps lay := by
  rw [deriveExpressMesh] at h
  obtain ⟨routers, hrouters, h⟩ := bind_eq_ok h
  obtain ⟨numCn, hcn, h⟩ := bind_eq_ok h
  obtain ⟨rfl, hlong, hsteps⟩ := meshNodeCount_eq hrouters
  cases h
  rw [formula, if_neg (by decide), if_neg (by decide), if_neg (by decide), if_neg (by decide),
    if_pos rfl, (shapeInt_eq hcn).1]
  exact ⟨hlong.wrapLong_eq.symm, (shapeInt_eq hcn).2.wrapLong_eq.symm, rfl, fun _ => hsteps⟩

theorem deriveSlimfly_wraps (h : deriveSlimfly shape = .ok lay) :
    (formula shape "slimfly").Wraps lay := by
  rw [deriveSlimfly] at h
  obtain ⟨numRouters, hrouters, h⟩ := bind_eq_ok h
  obtain ⟨numTerminals, hterminals, h⟩ := bind_eq_ok h
  obtain ⟨-, h⟩ := guard_eq_ok h
  cases h
  rw [formula, if_neg (by decide), if_neg (by decide), if_neg (by decide), if_neg (by decide),
    if_neg (by decide), if_pos rfl, (shapeInt_eq hrouters).1, (shapeInt_eq hterminals).1]
  refine ⟨wrapLong_wrapLong_mul _ _, (shapeInt_eq hterminals).2.wrapLong_eq.symm, rfl,
    fun hf v hv => ?_⟩
  rw [List.mem_singleton.1 hv]
  exact fitsLong_of_mul hf.repetitions

theorem deriveDragonflyPlus_wraps (h : deriveDragonflyPlus shape = .ok lay) :
    (formula shape "dragonfly-plus").Wraps lay := by
  rw [deriveDragonflyPlus] at h
  obtain ⟨numGroups, hgroups, h⟩ := bind_eq_ok h
  obtain ⟨spine, hspine, h⟩ := bind_eq_ok h
  obtain ⟨leaf, hleaf, h⟩ := bind_eq_ok h
  obtain ⟨numCns, hcns, h⟩ := bind_eq_ok h
  cases h
  rw [formula, if_neg (by decide), if_neg (by decide), if_neg (by decide), if_neg (by decide),
    if_neg (by decide), if_neg (by decide), if_pos rfl, (shapeInt_eq hgroups).1,
    (shapeInt_eq hspine).1, (shapeInt_eq hleaf).1, (shapeInt_eq hcns).1]
  exact ⟨(shapeInt_eq hgroups).2.wrapLong_eq.symm, rfl, rfl, fun _ _ hv => nomatch hv⟩

theorem deriveDragonflyCustom_wraps (h : deriveDragonflyCustom shape = .ok lay) :
    (formula shape "dragonfly-custom").Wraps lay := by
  rw [deriveDragonflyCustom] at h
  obtain ⟨numGroups, hgroups, h⟩ := bind_eq_ok h
  obtain ⟨rows, hrows, h⟩ := bind_eq_ok h
  obtain ⟨cols, hcols, h⟩ := bind_eq_ok h
  obtain ⟨numCns, hcns, h⟩ := bind_eq_ok h
  obtain ⟨-, -, h⟩ := bind_eq_ok h
  cases h
  rw [formula, if_neg (by decide), if_neg (by decide), if_neg (by decide), if_neg (by decide),
    if_neg (by decide), if_neg (by decide), if_neg (by decide), (shapeInt_eq hgroups).1,
    (shapeInt_eq hrows).1, (shapeInt_eq hcols).1, (shapeInt_eq hcns).1]
  refine ⟨wrapLong_wrapLong_mul _ _, (shapeInt_eq hcns).2.wrapLong_eq.symm, rfl, fun hf v hv => ?_⟩
  rw [List.mem_singleton.1 hv]
  exact fitsLong_of_mul hf.repetitions

/-- **A derived layout is the exact one modulo `2 ^ 64`.** -/
theorem derive_wraps {model : FabricModel} (hmodel : model ∈ fabricModels)
    (h : model.derive shape = .ok lay) : (formula shape model.name).Wraps lay := by
  simp only [fabricModels, List.mem_cons, List.not_mem_nil, or_false] at hmodel
  rcases hmodel with rfl | rfl | rfl | rfl | rfl | rfl | rfl | rfl
  · exact deriveDragonfly_wraps h
  · exact deriveDragonflyDally_wraps h
  · exact deriveFattree_wraps h
  · exact deriveTorus_wraps h
  · exact deriveExpressMesh_wraps h
  · exact deriveSlimfly_wraps h
  · exact deriveDragonflyPlus_wraps h
  · exact deriveDragonflyCustom_wraps h

/-! ### What is emitted -/

/-- A number is read as it was written. -/
theorem strtol_intStr (h : FitsLong n) : strtol (intStr n) = (n, false) := by
  have hall : ∀ k : ℕ, (Nat.toDigits 10 k).takeWhile Char.isDigit = Nat.toDigits 10 k :=
    fun k => List.takeWhile_eq_self_iff.2 fun c hc => isDigit_of_mem_toDigits hc
  have hval : ∀ k : ℕ, digitsVal (Nat.toDigits 10 k) = k :=
    fun k => Nat.ofDigitChars_toDigits (by decide) (by decide)
  rw [FitsLong] at h
  cases n with
  | ofNat k =>
    rw [Int.ofNat_eq_natCast] at h ⊢
    have hstart : (intStr k).dropWhile isSpace = intStr k ∧
      splitSign (intStr k) = (false, intStr k) := by
      rw [intStr_natCast]
      obtain ⟨c, rest, hcons⟩ := List.exists_cons_of_ne_nil (Nat.toDigits_ne_nil (n := k) (b := 10))
      have hc : c.isDigit = true := isDigit_of_mem_toDigits (n := k) (hcons ▸ List.mem_cons_self)
      have hne : ∀ sign : Char, sign.isDigit = false → c ≠ sign := by
        rintro sign hsign rfl
        exact absurd hc (by rw [hsign]; decide)
      rw [hcons]
      refine ⟨List.dropWhile_cons_of_neg (by rw [isSpace_of_isDigit hc]; decide), ?_⟩
      simp [splitSign, hne '-' (by decide), hne '+' (by decide)]
    rw [strtol, hstart.1, hstart.2, intStr_natCast]
    simp only [hall, hval, Bool.false_eq_true, if_false]
    rw [if_neg (by omega), if_neg (by omega)]
  | negSucc k =>
    have hsign : splitSign ('-' :: Nat.toDigits 10 (k + 1)) = (true, Nat.toDigits 10 (k + 1)) := rfl
    rw [strtol, intStr_negSucc, List.dropWhile_cons_of_neg (by decide), hsign]
    simp only [hall, hval, if_true]
    rw [if_neg (by omega), if_neg (by omega)]
    rfl

/-- Every count that is emitted is what is stored of it as an `int`. -/
def CountsFit (lpgroups : CompiledSection) : Prop :=
  ∀ grp ∈ lpgroups.subsections, ∀ k ∈ grp.keys, ∀ text ∈ k.values,
    wrapInt (strtol text).1 = (strtol text).1

/-- The layout of a compiled topology is the exact one, nothing has overflown on the way to it, and
the counts are loaded as they are. -/
structure ExactLayout (f : Formula) (lay : Layout) (top : CompiledTopology) : Prop where
  repetitions : lay.repetitions = f.repetitions
  terminalsPerRep : lay.terminalsPerRep = f.terminalsPerRep
  routersPerRep : lay.routersPerRep = f.routersPerRep
  totalSlots : top.totalSlots = f.repetitions * f.terminalsPerRep
  noOverflow : ∀ v ∈ f.repetitions :: f.terminalsPerRep :: f.routersPerRep ::
    f.repetitions * f.terminalsPerRep :: f.steps, FitsLong v
  counts : CountsFit top.lpgroups

theorem routersPerRep_of_none {model : FabricModel} (hmodel : model ∈ fabricModels)
    (hnone : model.routerLp = none) : (formula shape model.name).routersPerRep = 0 := by
  simp only [fabricModels, List.mem_cons, List.not_mem_nil, or_false] at hmodel
  rcases hmodel with rfl | rfl | rfl | rfl | rfl | rfl | rfl | rfl
  case inr.inr.inr.inl => rfl
  all_goals cases hnone

theorem compileFabric_layout {lib : Library} {cfg : FriendlyConfig} {fab : Fabric}
    {top : CompiledTopology} (h : compileFabric lib cfg fab = .ok top) :
    ∃ model lay, findFabricModel fab.model = some model ∧ model.derive fab.shape = .ok lay ∧
      (1 ≤ lay.repetitions ∧ 1 ≤ lay.terminalsPerRep ∧ 0 ≤ lay.routersPerRep) ∧
      top.totalSlots = wrapLong (lay.repetitions * lay.terminalsPerRep) ∧
      ∃ host, top.lpgroups = .mk "LPGROUPS" [] [.mk "MODELNET_GRP"
        (⟨"repetitions", [intStr lay.repetitions]⟩ :: ⟨host, [intStr lay.terminalsPerRep]⟩ ::
          ⟨model.terminalLp, [intStr lay.terminalsPerRep]⟩ ::
          model.routerLp.toList.map fun lp => ⟨lp, [intStr lay.routersPerRep]⟩) []] := by
  rw [compileFabric] at h
  split at h
  · cases h
  · rename_i model hmodel
    split at h
    · cases h
    · rename_i host hhost
      obtain ⟨-, h⟩ := guard_eq_ok h
      obtain ⟨-, h⟩ := guard_eq_ok h
      obtain ⟨lay, hlay, h⟩ := bind_eq_ok h
      obtain ⟨hdegenerate, h⟩ := guard_eq_ok h
      obtain ⟨params, -, h⟩ := bind_eq_ok h
      cases h
      refine ⟨model, lay, hmodel, hlay, by omega, rfl, host.model, ?_⟩
      cases model.routerLp with
      | none => rfl
      | some routerLp => rfl

/-- **When the layout of a compiled fabric is the exact one**: exactly if its counts are in the
range of `int`s. -/
theorem compileFabric_exact_iff {lib : Library} {cfg : FriendlyConfig} {fab : Fabric}
    {top : CompiledTopology} (h : compileFabric lib cfg fab = .ok top) :
    ∃ model lay, findFabricModel fab.model = some model ∧ model.derive fab.shape = .ok lay ∧
      (ExactLayout (formula fab.shape fab.model) lay top ↔
        (formula fab.shape fab.model).InRange) := by
  obtain ⟨model, lay, hmodel, hlay, hpos, htotal, host, hgroups⟩ := compileFabric_layout h
  refine ⟨model, lay, hmodel, hlay, ?_⟩
  have hmem : model ∈ fabricModels := List.mem_of_find?_eq_some hmodel
  have hname : model.name = fab.model := by
    simpa using List.find?_some hmodel
  have hw := derive_wraps hmem hlay
  have hnone : model.routerLp = none → (formula fab.shape model.name).routersPerRep = 0 :=
    routersPerRep_of_none hmem
  rw [hname] at hw hnone
  have hcounts : CountsFit top.lpgroups ↔ wrapInt lay.repetitions = lay.repetitions ∧
      wrapInt lay.terminalsPerRep = lay.terminalsPerRep ∧
      (model.routerLp ≠ none → wrapInt lay.routersPerRep = lay.routersPerRep) := by
    have hreps : FitsLong lay.repetitions := hw.repetitions ▸ fitsLong_wrapLong _
    have hterms : FitsLong lay.terminalsPerRep := hw.terminalsPerRep ▸ fitsLong_wrapLong _
    have hrouters : FitsLong lay.routersPerRep := hw.routersPerRep ▸ fitsLong_wrapLong _
    rw [CountsFit, hgroups]
    cases model.routerLp with
    | none =>
      simp [CompiledSection.subsections, CompiledSection.keys, strtol_intStr hreps,
        strtol_intStr hterms]
    | some lp =>
      simp [CompiledSection.subsections, CompiledSection.keys, strtol_intStr hreps,
        strtol_intStr hterms, strtol_intStr hrouters]
  generalize formula fab.shape fab.model = f at hw hnone ⊢
  constructor
  · intro hexact
    obtain ⟨hreps, hterms, hrouters⟩ := hcounts.1 hexact.counts
    rw [hexact.repetitions, wrapInt_eq_iff] at hreps
    rw [hexact.terminalsPerRep, wrapInt_eq_iff] at hterms
    rw [hexact.repetitions, hexact.terminalsPerRep, hexact.routersPerRep] at hpos
    refine ⟨⟨hpos.1, hreps.2⟩, ⟨hpos.2.1, hterms.2⟩, hpos.2.2, ?_⟩
    by_cases hlp : model.routerLp = none
    · rw [hnone hlp]
      decide
    · have hle := hrouters hlp
      rw [hexact.routersPerRep, wrapInt_eq_iff] at hle
      exact hle.2
  · intro hf
    obtain ⟨⟨hreps, hreps'⟩, ⟨hterms, hterms'⟩, hrouters, hrouters'⟩ := hf
    have hlong : ∀ v : ℤ, 0 ≤ v → v ≤ 2 ^ 31 - 1 → FitsLong v := fun v hv hv' =>
      ⟨by omega, by omega⟩
    have hrepsLong := hlong _ (by omega) hreps'
    have htermsLong := hlong _ (by omega) hterms'
    have hroutersLong := hlong _ hrouters hrouters'
    have htotalLong : FitsLong (f.repetitions * f.terminalsPerRep) := by
      have hle := Int.mul_le_mul hreps' hterms' (by omega) (by omega)
      have hone := Int.mul_le_mul hreps hterms (by omega) (by omega)
      exact ⟨by omega, by omega⟩
    have heq := hw.repetitions.trans hrepsLong.wrapLong_eq
    have heq' := hw.terminalsPerRep.trans htermsLong.wrapLong_eq
    have heq'' := hw.routersPerRep.trans hroutersLong.wrapLong_eq
    refine ⟨heq, heq', heq'', ?_, ?_, ?_⟩
    · rw [htotal, heq, heq', htotalLong.wrapLong_eq]
    · have hsteps := hw.steps ⟨⟨hreps, hreps'⟩, ⟨hterms, hterms'⟩, hrouters, hrouters'⟩
      simp only [List.forall_mem_cons]
      exact ⟨hrepsLong, htermsLong, hroutersLong, htotalLong, hsteps⟩
    · rw [hcounts, heq, heq', heq'', wrapInt_eq_iff, wrapInt_eq_iff, wrapInt_eq_iff]
      exact ⟨by omega, by omega, fun _ => by omega⟩

/-! ### A dragonfly that is too large -/

/-- A dragonfly-dally with one terminal on each router. -/
def sampleDragonfly (numGroups numRouters : String) : Fabric where
  model := "dragonfly-dally"
  shape := [("num_groups", numGroups.toList), ("num_routers", numRouters.toList),
    ("num_cns_per_router", "1"), ("num_global_channels", "1")]
  links := []
  routing := []
  connections := []
  extra := []
  extraLists := []
  hostsComponent := "host"

/-- What is compiled of `sampleDragonfly`. -/
def sampleLayout (numGroups numRouters repetitions : String) (totalSlots : ℤ) :
    CompiledTopology where
  lpgroups := .mk "LPGROUPS" [] [.mk "MODELNET_GRP"
    [⟨"repetitions", [repetitions.toList]⟩, ⟨"nw-lp", ["1"]⟩,
      ⟨"modelnet_dragonfly_dally", ["1"]⟩,
      ⟨"modelnet_dragonfly_dally_router", ["1"]⟩] []]
  params := .mk "PARAMS"
    [⟨"modelnet_order", ["dragonfly_dally", "dragonfly_dally_router"]⟩,
      ⟨"num_groups", [numGroups.toList]⟩, ⟨"num_routers", [numRouters.toList]⟩,
      ⟨"num_cns_per_router", ["1"]⟩, ⟨"num_global_channels", ["1"]⟩,
      ⟨"message_size", ["1024"]⟩] []
  totalSlots := totalSlots

theorem compileFabric_small :
    compileFabric (sampleLibrary "message_size") (sampleConfig "message_size")
      (sampleDragonfly "4" "2") = .ok (sampleLayout "4" "2" "8" 8) := by
  with_unfolding_all rfl

theorem formula_sampleDragonfly :
    formula (sampleDragonfly "4" "2").shape "dragonfly-dally" = ⟨8, 1, 1, [4]⟩ ∧
      formula (sampleDragonfly "4294967296" "4294967297").shape "dragonfly-dally" =
        ⟨18446744078004518912, 1, 1, [4294967296]⟩ := by
  constructor
  · with_unfolding_all rfl
  · with_unfolding_all rfl

/-- Four groups of two routers. -/
theorem dragonfly_exact : ∃ model lay,
    findFabricModel (sampleDragonfly "4" "2").model = some model ∧
      model.derive (sampleDragonfly "4" "2").shape = .ok lay ∧
      ExactLayout (formula (sampleDragonfly "4" "2").shape (sampleDragonfly "4" "2").model) lay
        (sampleLayout "4" "2" "8" 8) := by
  obtain ⟨model, lay, hmodel, hlay, hexact⟩ := compileFabric_exact_iff compileFabric_small
  refine ⟨model, lay, hmodel, hlay, hexact.2 ?_⟩
  have hformula : formula (sampleDragonfly "4" "2").shape (sampleDragonfly "4" "2").model =
      ⟨8, 1, 1, [4]⟩ := formula_sampleDragonfly.1
  rw [hformula]
  exact ⟨by decide, by decide, by decide⟩

/-- `2 ^ 32` groups of `2 ^ 32 + 1` routers are accepted as `2 ^ 32` routers, and these are loaded
as none. -/
theorem dragonfly_wraps :
    compileFabric (sampleLibrary "message_size") (sampleConfig "message_size")
        (sampleDragonfly "4294967296" "4294967297") =
      .ok (sampleLayout "4294967296" "4294967297" "4294967296" 4294967296) ∧
    (formula (sampleDragonfly "4294967296" "4294967297").shape "dragonfly-dally").repetitions =
      18446744078004518912 ∧
    (∀ lay, ¬ExactLayout
      (formula (sampleDragonfly "4294967296" "4294967297").shape "dragonfly-dally") lay
      (sampleLayout "4294967296" "4294967297" "4294967296" 4294967296)) ∧
    checkedStrtol "4294967296" = some 0 := by
  rw [formula_sampleDragonfly.2]
  refine ⟨?_, rfl, fun lay hexact => ?_, by decide⟩
  · with_unfolding_all rfl
  · exact absurd hexact.totalSlots (by decide)

end CodesSim.Config
