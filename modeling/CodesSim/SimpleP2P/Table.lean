import CodesSim.Mapping.Context
import CodesSim.Mapping.Relative
import CodesSim.SimpleP2P.Matrix

/-!
# Looking up a link

A matrix has a line for each sender and a pair of columns for each receiver.  An LP numbers itself
among the LPs with its annotation, but a sender counts the LPs with any annotation before its
receiver; and the matrix is checked to have enough columns, not enough lines.

* `linkRight_iff` : when both sides of a message find the entry of the sender's line and the
  receiver's columns.
-/

namespace CodesSim.SimpleP2P

open Config (CStr)
open CodesMapping

/-- `model_net_lp_config_names[SIMPLEP2P]`. -/
def lpConfigName : String := "modelnet_simplep2p"

/-! ### Configuration -/

/-- A table and its size. -/
structure Table (V : Type) where
  vals : ℕ → Option V
  size : ℕ

/-- `simplep2p_param`. -/
structure Param (V : Type) where
  netLatencyNsTable : Table V
  netBwMbpsTable : Table V
  matLen : ℤ
  numLps : ℤ

variable {V : Type} (atof : CStr → V) (conf : LpConf)

/-- `sp_set_params`, given the contents of the files. -/
def spSetParams (latency bw : CStr) (numLps : ℤ) : Except Fault (Param V) := do
  let s ← parseMat atof latency false
  let b ← parseMat atof bw false
  if s.nvalsFirst ≠ b.nvalsFirst then .error .assertion
  else .ok ⟨⟨s.buf.vals, s.nvalsTotal⟩, ⟨b.buf.vals, b.nvalsTotal⟩, s.nvalsFirst, numLps⟩

/-- `sp_read_config`. -/
def spReadConfig (anno : Option String) (files : CStr × CStr) : Except Fault (Param V) := do
  let numLps := getLpCountOf conf none false lpConfigName anno false
  let p ← spSetParams atof files.1 files.2 numLps
  if p.matLen ≠ wrapInt (2 * p.numLps) then .error .wrongSize else .ok p

/-- The annotations of the LPs (`anno_map`), each once. -/
def annotations : List String :=
  (conf.flatMap fun lpg =>
    (lpg.lptypes.filter fun lpt => lpt.name = lpConfigName).filterMap LpType.anno).eraseDups

/-- There are LPs without an annotation. -/
def hasUnannoLp : Bool :=
  conf.any fun lpg => lpg.lptypes.any fun lpt => lpt.name = lpConfigName ∧ lpt.anno = none

/-- `sp_configure`: the parameters for each annotation, those without one last. -/
def spConfigure (files : Option String → CStr × CStr) : Except Fault (List (Param V)) :=
  ((annotations conf).map some ++ if hasUnannoLp conf then [none] else []).mapM fun anno =>
    spReadConfig atof conf anno (files anno)

/-- The parameters that `sp_init` gives an LP with an annotation. -/
def spParams (allParams : List (Param V)) : Option String → Option (Param V)
  | none => allParams[allParams.length - 1]?
  | some anno => ((annotations conf).findIdx? (· == anno)).bind (allParams[·]?)

/-! ### Lookups -/

/-- The index that `sp_get_table_ent` reads, an `int`. -/
def tableIndex (fromId toId isIncoming numLps : ℤ) : ℤ :=
  wrapInt (2 * fromId * numLps + 2 * toId + isIncoming)

/-- What a handler indexes: an entry of the tables and one of its arrays of idle times. -/
structure Lookup where
  entry : ℤ
  idle : ℤ

/-- The id that `sp_init` gives an LP. -/
def spId (gid : Lpid) : Except String ℤ := getLpRelativeId conf gid false true

/-- The lookups of `handle_msg_start_event` on the LP with id `gid`. -/
def startLookup (p : Param V) (gid destMnLp : Lpid) : Except String Lookup := do
  let id ← spId conf gid
  let destRelId ← getLpRelativeId conf destMnLp false false
  return ⟨tableIndex id destRelId 0 p.numLps, destRelId⟩

/-- The lookups of `handle_msg_ready_event` on the LP with id `gid`, for a message that says where
it comes from. -/
def readyLookup (p : Param V) (gid : Lpid) (srcMnRelId : ℤ) : Except String Lookup := do
  let id ← spId conf gid
  return ⟨tableIndex srcMnRelId id 1 p.numLps, srcMnRelId⟩

/-! ### What they should find -/

/-- A lookup finds the entry in line `row` and column `col`, and its idle time is there. -/
structure Lookup.Hits (x : Lookup) (p : Param V) (row col : ℕ) : Prop where
  entry : x.entry = row * p.matLen + col
  latency : x.entry < p.netLatencyNsTable.size
  bw : x.entry < p.netBwMbpsTable.size
  idle_nonneg : 0 ≤ x.idle
  idle_lt : x.idle < p.numLps

/-- The lookups for a message from an LP to another, the numbers `s` and `d` of which are counted
among the LPs with their annotation. -/
def LinkRight (p : Param V) (src dest : Lpid) (s d : ℕ) : Prop :=
  ∃ id x y, spId conf src = .ok id ∧ startLookup conf p src dest = .ok x ∧
    readyLookup conf p dest id = .ok y ∧ x.Hits p s (2 * d) ∧ y.Hits p s (2 * d + 1)

/-- The number of LPs of the type of `i` below `n` that have another annotation. -/
def otherCount (i : LpInfo2) (n : ℕ) : ℕ :=
  Nat.count (fun k => hasIdentity conf false false i k ∧ ¬ hasIdentity conf false true i k) n

/-- The number of values on a line. -/
def lineVals (line : CStr) : ℕ := ((words isBlank line).map fun tok => (tokenVals tok).length).sum

/-- The number of lines with values. -/
def valLines (text : CStr) : ℕ := (words isBreak text).countP fun line => lineVals line ≠ 0

/-! ### The size of a table -/

variable {atof} {m m' : Buf V} {total lineCt ct : ℕ} {toks : List CStr} {text : CStr} {r : Mat V}

/-- The sizes that a buffer may have: it is doubled until an `int` is too small. -/
def Size (bufn : ℤ) : Prop := (∃ k ≤ 23, bufn = (128 * 2 ^ k : ℕ)) ∨ bufn = -2 ^ 31 ∨ bufn = 0

theorem Size.le {bufn : ℤ} (h : Size bufn) : bufn ≤ 2 ^ 30 := by
  obtain ⟨k, hk, rfl⟩ | rfl | rfl := h
  · have hpow : 2 ^ k ≤ 2 ^ 23 := Nat.pow_le_pow_right (by omega) hk
    omega
  · omega
  · omega

theorem Size.grow (h : Size m.bufn) (i : ℕ) : Size (m.grow i).bufn := by
  by_cases hfull : m.bufn ≤ i
  · have hgrow : (m.grow i).bufn = (2 * m.bufn).bmod (2 ^ 32) := by rw [Buf.grow, if_pos hfull]
    rw [hgrow]
    obtain ⟨k, hk, hbufn⟩ | hbufn | hbufn := h
    · obtain hk | rfl : k < 23 ∨ k = 23 := by omega
      · have hpow : 2 ^ k ≤ 2 ^ 22 := Nat.pow_le_pow_right (by omega) (by omega)
        refine .inl ⟨k + 1, hk, ?_⟩
        rw [hbufn, Int.bmod_eq_of_le (by omega) (by omega), pow_succ]
        push_cast
        ring
      · exact .inr (.inl (by rw [hbufn]; rfl))
    · exact .inr (.inr (by rw [hbufn]; rfl))
    · exact .inr (.inr (by rw [hbufn]; rfl))
  · rwa [Buf.grow, if_neg hfull]

theorem storeVals_fits {l : List CStr} (h : storeVals atof total m lineCt l = .ok (m', ct)) :
    m'.bufn = m.bufn ∧ ct = lineCt + l.length ∧ (l ≠ [] → (total + ct : ℕ) ≤ m.bufn) := by
  induction l generalizing m lineCt with
  | nil =>
    cases h
    exact ⟨rfl, rfl, fun h => absurd rfl h⟩
  | cons val l ih =>
    rw [storeVals] at h
    obtain ⟨m₁, hstore, hrest⟩ := Outcome.bind_eq_ok h
    rw [Buf.store] at hstore
    split_ifs at hstore with hlt
    cases hstore
    obtain ⟨hbufn, hct, hle⟩ := ih hrest
    refine ⟨hbufn, by rw [hct, List.length_cons]; omega, fun _ => ?_⟩
    by_cases hl : l = []
    · subst hl
      rw [List.length_nil] at hct
      omega
    · exact hle hl

theorem readTokens_fits (h : readTokens atof total m lineCt toks = .ok (m', ct))
    (hsize : Size m.bufn) (hle : total + lineCt ≤ 2 ^ 30) : Size m'.bufn ∧
      ct = lineCt + (toks.map fun tok => (tokenVals tok).length).sum ∧ total + ct ≤ 2 ^ 30 := by
  induction toks generalizing m lineCt with
  | nil =>
    cases h
    exact ⟨hsize, rfl, hle⟩
  | cons tok toks ih =>
    rw [readTokens] at h
    obtain ⟨⟨m₁, ct₁⟩, hstore, hrest⟩ := Outcome.bind_eq_ok h
    obtain ⟨hbufn, hct, hroom⟩ := storeVals_fits hstore
    have hsize₁ : Size m₁.bufn := by
      rw [hbufn]
      exact hsize.grow _
    have hle₁ : total + ct₁ ≤ 2 ^ 30 := by
      by_cases hempty : tokenVals tok = []
      · rw [hct, hempty, List.length_nil, Nat.add_zero]
        exact hle
      · have hroom := hroom hempty
        rw [← hbufn] at hroom
        have := hsize₁.le
        omega
    obtain ⟨hsize', hct', hle'⟩ := ih hrest hsize₁ hle₁
    refine ⟨hsize', ?_, hle'⟩
    rw [hct', hct, List.map_cons, List.sum_cons, Nat.add_assoc]

/-- What is known after the lines `lines` of a square matrix: the first ones have no values, the
others all have the same number. -/
structure Mat.Square (r : Mat V) (lines : List CStr) : Prop where
  size : Size r.buf.bufn
  le : r.nvalsTotal ≤ 2 ^ 30
  total : r.nvalsTotal = r.nvalsFirst * lines.countP fun line => lineVals line ≠ 0
  none : r.nvalsFirst = 0 → (lines.countP fun line => lineVals line ≠ 0) = 0
  prev : r.nvalsFirst ≠ 0 → r.lineCtPrev = r.nvalsFirst

theorem Mat.Square.readLine {r' : Mat V} {lines : List CStr} {line : CStr} (h : r.Square lines)
    (hread : readLine atof false r line = .ok r') : r'.Square (lines ++ [line]) := by
  obtain ⟨⟨buf, ct⟩, htoks, hrest⟩ := Outcome.bind_eq_ok hread
  obtain ⟨first, hcheck, hr⟩ := Outcome.bind_eq_ok hrest
  cases hr
  obtain ⟨hsize, hct, hle⟩ := readTokens_fits htoks h.size (by have := h.le; omega)
  rw [Nat.zero_add, ← lineVals] at hct
  have hcount : (lines ++ [line]).countP (fun line => lineVals line ≠ 0) =
      (lines.countP fun line => lineVals line ≠ 0) + if ct ≠ 0 then 1 else 0 := by
    rw [List.countP_append, List.countP_singleton, hct]
    simp
  have htotal := h.total
  rw [checkLine] at hcheck
  by_cases hfirst : r.nvalsFirst = 0
  · rw [if_pos hfirst] at hcheck
    obtain rfl : ct = first := Except.ok.inj hcheck
    have hnone := h.none hfirst
    rw [hfirst, Nat.zero_mul] at htotal
    refine ⟨hsize, hle, ?_, fun hct => ?_, fun _ => rfl⟩
    · rw [hcount, hnone, htotal]
      split_ifs with hct <;> simp_all
    · rw [hcount, hnone, if_neg (not_not.2 hct)]
  · rw [if_neg hfirst, if_neg (by simp), h.prev hfirst] at hcheck
    by_cases hct' : ct = r.nvalsFirst
    · rw [if_neg (by simp [hct'])] at hcheck
      cases hcheck
      refine ⟨hsize, hle, ?_, fun h => absurd h hfirst, fun _ => hct'⟩
      rw [hcount, if_pos (by omega), htotal, hct']
      ring
    · rw [if_pos ⟨by simp, hct'⟩] at hcheck
      cases hcheck

theorem parseMat_square (h : parseMat atof text false = .ok r) :
    r.nvalsTotal = r.nvalsFirst * valLines text ∧ r.nvalsTotal ≤ 2 ^ 30 := by
  have hrun (lines rest : List CStr) (r₀ : Mat V) (h₀ : r₀.Square lines)
      (h : rest.foldlM (SimpleP2P.readLine atof false) r₀ = .ok r) : r.Square (lines ++ rest) := by
    induction rest generalizing lines r₀ with
    | nil =>
      cases h
      rwa [List.append_nil]
    | cons line rest ih =>
      rw [List.foldlM_cons] at h
      obtain ⟨r₁, hread, hrest⟩ := Outcome.bind_eq_ok h
      have := ih (lines ++ [line]) r₁ (h₀.readLine hread) hrest
      rwa [List.append_assoc] at this
  have hinit : Mat.Square (V := V) ⟨.init, 0, 0, 0⟩ [] :=
    ⟨.inl ⟨0, by omega, rfl⟩, by simp, rfl, fun _ => rfl, fun h => absurd rfl h⟩
  have hsquare := hrun [] _ _ hinit h
  exact ⟨hsquare.total, hsquare.le⟩

/-! ### Numbers of LPs -/

theorem countInGroup_anno (name : String) (anno : Option String) (reps : ℕ) (n : ℤ)
    (ts : List LpType) : countInGroup false name anno false reps (wrapInt n) ts =
      wrapInt (n + reps * matchCount (entryMatches name anno true) ts) := by
  induction ts generalizing n with
  | nil => simp [countInGroup]
  | cons t ts ih =>
    rw [countInGroup, matchCount_cons]
    by_cases hmatch : entryMatches name anno true t = true
    · have hcond : name = t.name ∧ (false || cmpAnno anno t.anno) = true := by
        simpa [entryMatches] using hmatch
      rw [if_pos hcond, if_pos hmatch]
      simp only [Bool.false_eq_true, if_false]
      rw [wrapInt_add_wrapInt, wrapInt_wrapInt_add, ih]
      push_cast
      congr 1
      ring
    · have hcond : ¬(name = t.name ∧ (false || cmpAnno anno t.anno) = true) := by
        simpa [entryMatches] using hmatch
      rw [if_neg hcond, if_neg hmatch, ih, Nat.zero_add]

theorem getLpCountOf_anno (name : String) (anno : Option String) :
    getLpCountOf conf none false name anno false =
      wrapInt (groupsCount (entryMatches name anno true) conf) := by
  have hscan (gs : LpConf) (n : ℤ) : countScan none false name anno false (wrapInt n) gs =
      wrapInt (n + groupsCount (entryMatches name anno true) gs) := by
    induction gs generalizing n with
    | nil => simp [countScan, groupsCount]
    | cons g gs ih =>
      rw [countScan, if_pos (.inl rfl), groupsCount_cons, countInGroup_anno]
      simp only [ne_eq, not_true_eq_false, if_false]
      rw [ih]
      push_cast
      rw [Int.add_assoc]
  have := hscan conf 0
  rwa [Int.zero_add] at this

variable {conf}

variable {gid : Lpid} {i : LpInfo2}

theorem relativeId_eq (h : conf.Positive) (hanno : conf.AnnosNonempty)
    (hbound : totalLps conf < 2 ^ 64) (hi : getLpInfo2 conf gid = .ok i)
    (annotationWise : Bool) : getLpRelativeId conf gid false annotationWise =
      .ok (wrapInt (identityCount conf false annotationWise i gid.toNat)) := by
  obtain ⟨s, rfl, rfl⟩ := exists_slot_of_getLpInfo2 h hbound hi
  obtain ⟨rest, hrest⟩ := s.lpsOf_eq
  rw [getLpRelativeId_slot h hbound s (hanno _ s.grp_mem _ s.lpt_mem),
    toNat_word (s.gid_lt.trans hbound),
    identityCount_eq h hbound s false annotationWise s.gid_lt.le, hrest, ← s.length_before,
    List.take_left]

theorem getLpCountOf_eq (h : conf.Positive) (hbound : totalLps conf < 2 ^ 64)
    (hi : getLpInfo2 conf gid = .ok i) :
    getLpCountOf conf none false i.lpTypeName i.anno false =
      wrapInt (identityCount conf false true i (totalLps conf)) := by
  obtain ⟨s, rfl, rfl⟩ := exists_slot_of_getLpInfo2 h hbound hi
  rw [getLpCountOf_anno, identityCount_eq h hbound s false true le_rfl, ← length_lpsOf,
    List.take_length, ← countP_lpsOf]
  congr 2

theorem identityCount_add_otherCount (i : LpInfo2) (n : ℕ) :
    identityCount conf false false i n =
      identityCount conf false true i n + otherCount conf i n := by
  have hmono : ∀ k, hasIdentity conf false true i k = true →
      hasIdentity conf false false i k = true := by
    intro k
    unfold hasIdentity
    cases getLpInfo2 conf (UInt64.ofNat k) with
    | error => exact id
    | ok j => simpa [SameIdentity] using fun h _ => h
  induction n with
  | zero => rfl
  | succ n ih =>
    have hn := hmono n
    rw [identityCount, identityCount, otherCount, Nat.count_succ, Nat.count_succ, Nat.count_succ,
      ← identityCount, ← identityCount, ← otherCount, ih]
    by_cases ht : hasIdentity conf false true i n = true
    · simp [ht, hn ht]
      omega
    · by_cases hf : hasIdentity conf false false i n = true
      · simp [ht, hf]
        omega
      · simp [ht, hf]

theorem identityCount_lt (h : conf.Positive) (hbound : totalLps conf < 2 ^ 64)
    {j : LpInfo2} (hj : getLpInfo2 conf gid = .ok j) (hsame : SameIdentity false true i j) :
    identityCount conf false true i gid.toNat <
      identityCount conf false true i (totalLps conf) := by
  have hmem : hasIdentity conf false true i gid.toNat = true := by
    rw [hasIdentity, UInt64.ofNat_toNat, hj]
    exact decide_eq_true hsame
  obtain ⟨s, rfl, -⟩ := exists_slot_of_getLpInfo2 h hbound hj
  rw [toNat_word (s.gid_lt.trans hbound)] at hmem ⊢
  exact Nat.count_strict_mono hmem s.gid_lt

/-! ### Parameters -/

variable {files : Option String → CStr × CStr} {p : Param V}

theorem spReadConfig_spec {anno : Option String} {file : CStr × CStr}
    (h : spReadConfig atof conf anno file = .ok p) :
    p.numLps = getLpCountOf conf none false lpConfigName anno false ∧
      ∃ first : ℕ, p.matLen = first ∧ (first : ℤ) = wrapInt (2 * p.numLps) ∧
        p.netLatencyNsTable.size = first * valLines file.1 ∧ p.netLatencyNsTable.size ≤ 2 ^ 30 ∧
        p.netBwMbpsTable.size = first * valLines file.2 ∧ p.netBwMbpsTable.size ≤ 2 ^ 30 := by
  obtain ⟨p', hset, hcheck⟩ := Outcome.bind_eq_ok h
  obtain ⟨s, hs, hset⟩ := Outcome.bind_eq_ok hset
  obtain ⟨b, hb, hset⟩ := Outcome.bind_eq_ok hset
  split_ifs at hset with hfirst
  cases hset
  split_ifs at hcheck with hsize
  cases hcheck
  have hlat := parseMat_square hs
  have hbw := parseMat_square hb
  rw [← not_not.1 hfirst] at hbw
  exact ⟨rfl, s.nvalsFirst, rfl, not_not.1 hsize, hlat.1, hlat.2, hbw.1, hbw.2⟩

theorem spParams_eq (h : conf.Positive) (hbound : totalLps conf < 2 ^ 64)
    {allParams : List (Param V)} (hconf : spConfigure atof conf files = .ok allParams)
    (hi : getLpInfo2 conf gid = .ok i) (hname : i.lpTypeName = lpConfigName) :
    ∃ p, spParams conf allParams i.anno = some p ∧
      spReadConfig atof conf i.anno (files i.anno) = .ok p := by
  obtain ⟨s, -, rfl⟩ := exists_slot_of_getLpInfo2 h hbound hi
  have hname : s.lpt.name = lpConfigName := hname
  obtain ⟨hlen, hget⟩ := Outcome.getElem?_of_mapM hconf
  change ∃ p, spParams conf allParams s.lpt.anno = some p ∧
    spReadConfig atof conf s.lpt.anno (files s.lpt.anno) = .ok p
  cases hanno : s.lpt.anno with
  | none =>
    have hun : hasUnannoLp conf = true := by
      rw [hasUnannoLp, List.any_eq_true]
      refine ⟨s.grp, s.grp_mem, List.any_eq_true.2 ⟨s.lpt, s.lpt_mem, ?_⟩⟩
      simp [hname, hanno]
    rw [hun, if_pos rfl] at hlen hget
    obtain ⟨p, hp, hread⟩ := hget (annotations conf).length none (by simp)
    refine ⟨p, ?_, hread⟩
    rw [spParams, hlen]
    simpa using hp
  | some a =>
    have hmem : a ∈ annotations conf := by
      rw [annotations, List.mem_eraseDups, List.mem_flatMap]
      refine ⟨s.grp, s.grp_mem, List.mem_filterMap.2 ⟨s.lpt, ?_, hanno⟩⟩
      simpa [hname] using s.lpt_mem
    have hfound : (annotations conf).findIdx? (· == a) ≠ none := by
      rw [ne_eq, List.findIdx?_eq_none_iff]
      exact fun hnone => by simpa using hnone a hmem
    obtain ⟨k, hk⟩ := Option.ne_none_iff_exists'.1 hfound
    obtain ⟨hlt, hval, -⟩ := List.findIdx?_eq_some_iff_getElem.1 hk
    have hval : (annotations conf)[k] = a := by simpa using hval
    obtain ⟨p, hp, hread⟩ := hget k (some a) (by
      rw [List.getElem?_append_left (by simpa using hlt)]
      simp [List.getElem?_eq_getElem hlt, hval])
    refine ⟨p, ?_, hread⟩
    rw [spParams, hk]
    exact hp

/-! ### When the lookups hit -/

theorem wrapInt_add_eq {x : ℤ} {n : ℕ} (hx : wrapInt x = x) :
    wrapInt (x + n) = x ↔ 2 ^ 32 ∣ n := by
  have hiff : wrapInt (x + n) = wrapInt x ↔ ((2 ^ 32 : ℕ) : ℤ) ∣ n := by
    rw [wrapInt, wrapInt, Int.bmod_eq_bmod_iff_bmod_sub_eq_zero, ← Int.dvd_iff_bmod_eq_zero]
    simp
  rw [hx] at hiff
  rw [hiff, Int.natCast_dvd_natCast]

theorem two_mul_numLps {num : ℤ} {first : ℕ} (hpos : 0 < num) (hlt : num < 2 ^ 31)
    (hfirst : (first : ℤ) = wrapInt (2 * num)) : (first : ℤ) = 2 * num := by
  have hdvd := Int.dvd_bmod_sub_self (x := 2 * num) (m := 2 ^ 32)
  rw [← wrapInt, ← hfirst] at hdvd
  have hle : wrapInt (2 * num) < 2 ^ 31 := Int.bmod_lt (by omega)
  omega

theorem wrapInt_of_lt_num {s : ℕ} {n : ℤ} (h : (s : ℤ) < wrapInt n) : wrapInt s = s := by
  have hle : wrapInt n < 2 ^ 31 := Int.bmod_lt (by omega)
  exact wrapInt_of_range (by omega) (by omega)

theorem entry_lt {s d first lines size : ℕ} {num : ℤ} (htwo : (first : ℤ) = 2 * num)
    (hd : (d : ℤ) < num) (hs : s < lines) (hsize : size = first * lines) :
    first * s + (2 * d + 1) < size := by
  have hline : first * (s + 1) ≤ first * lines := Nat.mul_le_mul_left first hs
  rw [Nat.mul_succ] at hline
  omega

theorem lt_of_entry_lt {s c first lines size : ℕ} (hsize : size = first * lines)
    (h : first * s + c < size) : s < lines := by
  by_contra hge
  have hline : first * lines ≤ first * s := Nat.mul_le_mul_left first (not_lt.1 hge)
  omega

section

variable {s d o ls lb first : ℕ} {n : ℤ} (hlat : p.netLatencyNsTable.size = first * ls)
  (hlat' : p.netLatencyNsTable.size ≤ 2 ^ 30) (hbw : p.netBwMbpsTable.size = first * lb)
  (hlen : p.matLen = first) (hnum : p.numLps = wrapInt n)
  (hfirst : (first : ℤ) = wrapInt (2 * p.numLps))

include hlat hlat' hbw hlen hnum hfirst

/-- Both sides hit if the LPs are among those counted and each file has the line. -/
theorem hits_of_lt (hs : (s : ℤ) < p.numLps) (hd : (d : ℤ) < p.numLps) (ho : 2 ^ 32 ∣ o)
    (hls : s < ls) (hlb : s < lb) :
    Lookup.Hits ⟨tableIndex (wrapInt s) (wrapInt (d + o)) 0 p.numLps, wrapInt (d + o)⟩ p s (2 * d) ∧
      Lookup.Hits ⟨tableIndex (wrapInt s) (wrapInt d) 1 p.numLps, wrapInt s⟩ p s (2 * d + 1) := by
  have hpos : 0 < p.numLps := lt_of_le_of_lt (Int.natCast_nonneg s) hs
  have htwo := two_mul_numLps hpos (hnum ▸ Int.bmod_lt (by omega)) hfirst
  have hroom := entry_lt htwo hd hls hlat
  have hroom' := entry_lt htwo hd hlb hbw
  have hrow : 2 * (s : ℤ) * p.numLps = (first * s : ℕ) := by
    push_cast
    rw [htwo]
    ring
  have hentry : ∀ c : ℕ, (s : ℤ) * p.matLen + c = (first * s + c : ℕ) := by
    intro c
    rw [hlen]
    push_cast
    ring
  have hindex : ∀ c : ℕ, c ≤ 2 * d + 1 → wrapInt ((first * s + c : ℕ) : ℤ) =
      (first * s + c : ℕ) := fun c hc => wrapInt_natCast (by clear hfirst hnum; omega)
  have hsend : tableIndex (wrapInt s) (wrapInt (d + o)) 0 p.numLps = (first * s + 2 * d : ℕ) := by
    rw [tableIndex, wrapInt_of_lt_num (hnum ▸ hs),
      (wrapInt_add_eq (wrapInt_of_lt_num (hnum ▸ hd))).2 ho, hrow, ← hindex (2 * d) (by omega)]
    push_cast
    rw [Int.add_zero]
  have hrecv : tableIndex (wrapInt s) (wrapInt d) 1 p.numLps = (first * s + (2 * d + 1) : ℕ) := by
    rw [tableIndex, wrapInt_of_lt_num (hnum ▸ hs), wrapInt_of_lt_num (hnum ▸ hd), hrow,
      ← hindex (2 * d + 1) le_rfl]
    push_cast
    rw [Int.add_assoc]
  rw [hsend, hrecv, wrapInt_of_lt_num (hnum ▸ hs),
    (wrapInt_add_eq (wrapInt_of_lt_num (hnum ▸ hd))).2 ho]
  refine ⟨⟨?_, ?_, ?_, Int.natCast_nonneg d, hd⟩, ⟨?_, ?_, ?_, Int.natCast_nonneg s, hs⟩⟩
  · rw [hentry]
  · exact Int.ofNat_lt.2 (Nat.lt_of_succ_lt hroom)
  · exact Int.ofNat_lt.2 (Nat.lt_of_succ_lt hroom')
  · rw [hentry]
  · exact Int.ofNat_lt.2 hroom
  · exact Int.ofNat_lt.2 hroom'

/-- If both sides hit, the LPs are among those counted and each file has the line. -/
theorem lt_of_hits
    (hx : Lookup.Hits ⟨tableIndex (wrapInt s) (wrapInt (d + o)) 0 p.numLps, wrapInt (d + o)⟩ p s
      (2 * d))
    (hy : Lookup.Hits ⟨tableIndex (wrapInt s) (wrapInt d) 1 p.numLps, wrapInt s⟩ p s (2 * d + 1)) :
    (s : ℤ) < p.numLps ∧ (d : ℤ) < p.numLps ∧ 2 ^ 32 ∣ o ∧ s < ls ∧ s < lb := by
  have hpos : 0 < p.numLps := hy.idle_nonneg.trans_lt hy.idle_lt
  have htwo := two_mul_numLps hpos (hnum ▸ Int.bmod_lt (by omega)) hfirst
  have hentry : ∀ c : ℕ, (s : ℤ) * p.matLen + c = (first * s + c : ℕ) := by
    intro c
    rw [hlen]
    push_cast
    ring
  have hroom : first * s + (2 * d + 1) < p.netLatencyNsTable.size := by
    have hlt := hy.latency
    rw [hy.entry, hentry] at hlt
    exact Int.ofNat_lt.1 hlt
  have hroom' : first * s + (2 * d + 1) < p.netBwMbpsTable.size := by
    have hlt := hy.bw
    rw [hy.entry, hentry] at hlt
    exact Int.ofNat_lt.1 hlt
  have hls := lt_of_entry_lt hlat hroom
  have hlb := lt_of_entry_lt hbw hroom'
  have hsmall : s < 2 ^ 31 ∧ d < 2 ^ 31 ∧ first * s + 2 * d < 2 ^ 30 ∧ first ≤ 2 ^ 30 := by
    have hone : 1 ≤ first := by
      clear hnum hfirst
      omega
    have hmul : s ≤ first * s := Nat.le_mul_of_pos_left s hone
    have hcols : first ≤ first * ls := Nat.le_mul_of_pos_right first (Nat.zero_lt_of_lt hls)
    clear hnum hfirst hx hy
    omega
  have hws := wrapInt_natCast hsmall.1
  have hwd := wrapInt_natCast hsmall.2.1
  have hs := hy.idle_lt
  have hsend := hx.entry
  dsimp only at hs hsend
  rw [hws] at hs
  -- the index is not too large for an `int`, so the column is that of the receiver
  obtain ⟨dest, hdest⟩ := Int.eq_ofNat_of_zero_le hx.idle_nonneg
  have hd := hx.idle_lt
  dsimp only at hdest hd
  have hrow : 2 * (s : ℤ) * p.numLps + 2 * (dest : ℤ) + 0 = (first * s + 2 * dest : ℕ) := by
    push_cast
    rw [htwo]
    ring
  rw [hdest] at hd
  have hfit : first * s + 2 * dest < 2 ^ 31 := by
    clear hx hy hnum hfirst hws hwd hsend hdest
    omega
  rw [tableIndex, hws, hdest, hrow, wrapInt_natCast hfit, hentry, Int.ofNat_inj] at hsend
  obtain rfl : dest = d := by
    clear hx hy hnum hfirst hws hwd hdest
    omega
  exact ⟨hs, hd, (wrapInt_add_eq hwd).1 hdest, hls, hlb⟩

end

/-- **The lookups hit just if** no LP with another annotation comes before the receiver (or a
multiple of `2 ^ 32` of them do) and each file has a line for the sender; and an `int` holds the
number of LPs with the annotation, or one that is still larger than both numbers. -/
theorem linkRight_iff (atof : CStr → V) (conf : LpConf) (h : conf.Positive)
    (hanno : conf.AnnosNonempty) (hbound : totalLps conf < 2 ^ 64)
    (files : Option String → CStr × CStr) (allParams : List (Param V))
    (hconf : spConfigure atof conf files = .ok allParams) (src dest : Lpid) (i j : LpInfo2)
    (hi : getLpInfo2 conf src = .ok i) (hj : getLpInfo2 conf dest = .ok j)
    (hname : i.lpTypeName = lpConfigName) (hsame : SameIdentity false true i j) :
    ∃ p, spParams conf allParams i.anno = some p ∧
      (LinkRight conf p src dest (identityCount conf false true i src.toNat)
        (identityCount conf false true i dest.toNat) ↔
      2 ^ 32 ∣ otherCount conf i dest.toNat ∧
      identityCount conf false true i src.toNat < valLines (files i.anno).1 ∧
      identityCount conf false true i src.toNat < valLines (files i.anno).2 ∧
      (identityCount conf false true i (totalLps conf) < 2 ^ 31 ∨
        (identityCount conf false true i src.toNat : ℤ) <
          wrapInt (identityCount conf false true i (totalLps conf)) ∧
        (identityCount conf false true i dest.toNat : ℤ) <
          wrapInt (identityCount conf false true i (totalLps conf)))) := by
  obtain ⟨p, hp, hread⟩ := spParams_eq h hbound hconf hi hname
  obtain ⟨hnum, first, hlen, hfirst, hlat, hlat', hbw, -⟩ := spReadConfig_spec hread
  rw [← hname, getLpCountOf_eq h hbound hi] at hnum
  refine ⟨p, hp, ?_⟩
  have hother : SameIdentity false false i j :=
    ⟨hsame.1, hsame.2.1, fun h => absurd h (by decide)⟩
  have hsrc : spId conf src = .ok (wrapInt (identityCount conf false true i src.toNat)) :=
    relativeId_eq h hanno hbound hi true
  have hdest : spId conf dest = .ok (wrapInt (identityCount conf false true i dest.toNat)) := by
    rw [identityCount_congr conf hsame]
    exact relativeId_eq h hanno hbound hj true
  have hrel : getLpRelativeId conf dest false false =
      .ok (wrapInt (identityCount conf false true i dest.toNat +
        otherCount conf i dest.toNat)) := by
    have hcount : identityCount conf false false i dest.toNat = _ :=
      identityCount_add_otherCount i dest.toNat
    rw [relativeId_eq h hanno hbound hj, ← identityCount_congr conf hother, hcount]
    push_cast
    rfl
  have hs := identityCount_lt h hbound hi ⟨fun _ => rfl, rfl, fun _ => rfl⟩
  have hd := identityCount_lt h hbound hj hsame
  generalize identityCount conf false true i src.toNat = s at *
  generalize identityCount conf false true i dest.toNat = d at *
  generalize identityCount conf false true i (totalLps conf) = n at *
  have hx : startLookup conf p src dest = .ok ⟨tableIndex (wrapInt s)
      (wrapInt (d + otherCount conf i dest.toNat)) 0 p.numLps,
      wrapInt (d + otherCount conf i dest.toNat)⟩ := by
    rw [startLookup, hsrc, hrel]
    rfl
  have hy : readyLookup conf p dest (wrapInt s) =
      .ok ⟨tableIndex (wrapInt s) (wrapInt d) 1 p.numLps, wrapInt s⟩ := by
    rw [readyLookup, hdest]
    rfl
  constructor
  · rintro ⟨id, x, y, hid, hx', hy', hhit, hhit'⟩
    obtain rfl := Except.ok.inj (hsrc.symm.trans hid)
    obtain rfl := Except.ok.inj (hx.symm.trans hx')
    obtain rfl := Except.ok.inj (hy.symm.trans hy')
    obtain ⟨hs, hd, ho, hls, hlb⟩ := lt_of_hits hlat hlat' hbw hlen hnum hfirst hhit hhit'
    rw [hnum] at hs hd
    exact ⟨ho, hls, hlb, .inr ⟨hs, hd⟩⟩
  · rintro ⟨ho, hls, hlb, hint⟩
    have hlt : (s : ℤ) < p.numLps ∧ (d : ℤ) < p.numLps := by
      rw [hnum]
      obtain hint | hint := hint
      · rw [wrapInt_natCast hint]
        exact ⟨Int.ofNat_lt.2 hs, Int.ofNat_lt.2 hd⟩
      · exact hint
    obtain ⟨hhit, hhit'⟩ := hits_of_lt hlat hlat' hbw hlen hnum hfirst hlt.1 hlt.2 ho hls hlb
    exact ⟨_, _, _, hsrc, hx, hy, hhit, hhit'⟩

/-- LPs with two annotations. -/
def twoAnnotations : LpConf :=
  [⟨"A", 1, [⟨"modelnet_simplep2p", some "a", 2⟩, ⟨"modelnet_simplep2p", some "b", 2⟩]⟩]

/-- Two lines of two pairs. -/
def twoByTwo : CStr :=
  ['0', ',', '0', ' ', '1', ',', '2', '\n', '3', ',', '4', ' ', '0', ',', '0', '\n']

theorem spConfigure_twoAnnotations : ∃ allParams : List (Param ℕ),
    spConfigure digitsOf twoAnnotations (fun _ => (twoByTwo, twoByTwo)) = .ok allParams := by
  have hok : (spConfigure digitsOf twoAnnotations fun _ => (twoByTwo, twoByTwo)).isOk = true := by
    decide +kernel
  cases hrun : spConfigure digitsOf twoAnnotations fun _ => (twoByTwo, twoByTwo) with
  | ok allParams => exact ⟨allParams, rfl⟩
  | error e => rw [hrun] at hok; cases hok

theorem linkRight_iff_twoAnnotations : ∃ (allParams : List (Param ℕ)) (p : Param ℕ),
    spConfigure digitsOf twoAnnotations (fun _ => (twoByTwo, twoByTwo)) = .ok allParams ∧
      spParams twoAnnotations allParams (some "a") = some p ∧
      LinkRight twoAnnotations p 1 0 1 0 := by
  obtain ⟨allParams, hconf⟩ := spConfigure_twoAnnotations
  obtain ⟨p, hp, hiff⟩ := linkRight_iff digitsOf twoAnnotations (by decide) (by decide)
    (by decide) _ allParams hconf 1 0 ⟨"A", "modelnet_simplep2p", some "a", 0, 1⟩
    ⟨"A", "modelnet_simplep2p", some "a", 0, 0⟩ (by decide) (by decide) (by decide) (by decide)
  exact ⟨allParams, p, hconf, hp, hiff.2 (by decide +kernel)⟩

/-- The first LP with the second annotation sends to the second one, whose number among the LPs with
any annotation is 3. -/
theorem annotations_not_linkRight : ∃ (allParams : List (Param ℕ)) (p : Param ℕ),
    spConfigure digitsOf twoAnnotations (fun _ => (twoByTwo, twoByTwo)) = .ok allParams ∧
      getLpInfo2 twoAnnotations 2 = .ok ⟨"A", "modelnet_simplep2p", some "b", 0, 0⟩ ∧
      getLpInfo2 twoAnnotations 3 = .ok ⟨"A", "modelnet_simplep2p", some "b", 0, 1⟩ ∧
      spParams twoAnnotations allParams (some "b") = some p ∧
      ¬ LinkRight twoAnnotations p 2 3 0 1 := by
  obtain ⟨allParams, hconf⟩ := spConfigure_twoAnnotations
  have hinfo : getLpInfo2 twoAnnotations 2 =
      .ok ⟨"A", "modelnet_simplep2p", some "b", 0, 0⟩ := by decide
  obtain ⟨p, hp, hread⟩ := spParams_eq (by decide) (by decide) hconf hinfo rfl
  refine ⟨allParams, p, hconf, hinfo, by decide, hp, ?_⟩
  rintro ⟨id, x, y, hid, hx, -, hhit, -⟩
  obtain ⟨hnum, -⟩ := spReadConfig_spec hread
  have hnum : p.numLps = 2 := hnum.trans (by decide)
  have hrel : getLpRelativeId twoAnnotations 3 false false = .ok 3 := by decide
  rw [startLookup, hid, hrel] at hx
  obtain rfl := Except.ok.inj hx
  have hlt := hhit.idle_lt
  rw [hnum] at hlt
  change (3 : ℤ) < 2 at hlt
  omega

end CodesSim.SimpleP2P
