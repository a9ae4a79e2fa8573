import CodesSim.Config.Store
import CodesSim.Lib.Outcome
import Mathlib.Data.List.TakeWhile
import Mathlib.Tactic.Ring

/-!
# Reading a matrix

`parse_mat` reads the values of a text into a buffer that it doubles whenever a token starts at its
end.  A token is a value or a pair of values, so the second value of a pair may still be written
behind the end: this is so just if the pair starts one value before the buffer is full.

* `parseMat_right_iff` : when no value is written behind the end of the buffer and all values are
  there in the end, with their number and the number on the first line.
-/

namespace CodesSim.SimpleP2P

open Function
open Config (CStr)

/-- How reading matrices may end other than with them. -/
inductive Fault where
  /-- A value is written behind the end of the buffer. -/
  | overflow
  /-- The number of tokens in a line does not match the format. -/
  | mismatch
  /-- The first lines of two matrices differ in length. -/
  | assertion
  /-- The matrix does not match the number of LPs. -/
  | wrongSize

/-! ### Tokens -/

def isBreak (c : Char) : Bool := c == '\r' || c == '\n'

def isBlank (c : Char) : Bool := c == ' ' || c == '\t'

def isComma (c : Char) : Bool := c == ','

/-- A call of `strtok_r`: the next token, and where the search goes on. -/
def strtokR (isDelim : Char → Bool) (s : CStr) : Option (CStr × CStr) :=
  match s.dropWhile isDelim with
  | [] => none
  | c :: s =>
    some ((c :: s).takeWhile (!isDelim ·), ((c :: s).dropWhile (!isDelim ·)).tail)

/-- The tokens that calls of `strtok_r` find until there are no more. -/
def words (isDelim : Char → Bool) (s : CStr) : List CStr :=
  (s.splitOnP isDelim).filter fun w => !w.isEmpty

/-- The values of a token: what is before the first comma, then what is between blanks. -/
def tokenVals (tok : CStr) : List CStr :=
  match strtokR isComma tok with
  | none => []
  | some (val, save) => val :: words isBlank save

/-! ### The buffer -/

/-- The buffer; its places are written one after the other. -/
structure Buf (V : Type) where
  bufn : ℤ
  vals : ℕ → Option V

variable {V : Type} (atof : CStr → V)

/-- `malloc` of 128 values. -/
def Buf.init : Buf V := ⟨128, fun _ => none⟩

/-- The size is doubled, as a 32-bit integer, if the next place is not in the buffer. -/
def Buf.grow (m : Buf V) (i : ℕ) : Buf V :=
  if m.bufn ≤ i then { m with bufn := (2 * m.bufn).bmod (2 ^ 32) } else m

/-- `vals[i] = val`. -/
def Buf.store (m : Buf V) (i : ℕ) (val : V) : Except Fault (Buf V) :=
  if i < m.bufn then .ok { m with vals := update m.vals i (some val) }
  else .error .overflow

/-- The loop over the values of a token. -/
def storeVals (total : ℕ) (m : Buf V) (lineCt : ℕ) : List CStr → Except Fault (Buf V × ℕ)
  | [] => .ok (m, lineCt)
  | val :: l => do
    let m ← m.store (lineCt + total) (atof val)
    storeVals total m (lineCt + 1) l

/-- The loop over the tokens of a line. -/
def readTokens (total : ℕ) (m : Buf V) (lineCt : ℕ) : List CStr → Except Fault (Buf V × ℕ)
  | [] => .ok (m, lineCt)
  | tok :: toks => do
    let (m, lineCt) ← storeVals atof total (m.grow (lineCt + total)) lineCt (tokenVals tok)
    readTokens total m lineCt toks

/-- What is known after some of the lines. -/
structure Mat (V : Type) where
  buf : Buf V
  (nvalsFirst nvalsTotal lineCtPrev : ℕ)

/-- What is taken for the number on the first line after a line; all others are checked. -/
def checkLine (isTriMat : Bool) (nvalsFirst lineCtPrev lineCt : ℕ) : Except Fault ℕ :=
  if nvalsFirst = 0 then .ok lineCt
  else if isTriMat ∧ (lineCt : ℤ) ≠ lineCtPrev - 1 then .error .mismatch
  else if ¬ isTriMat ∧ lineCt ≠ lineCtPrev then .error .mismatch
  else .ok nvalsFirst

/-- The pass of the loop over the lines. -/
def readLine (isTriMat : Bool) (r : Mat V) (line : CStr) : Except Fault (Mat V) := do
  let (buf, lineCt) ← readTokens atof r.nvalsTotal r.buf 0 (words isBlank line)
  let nvalsFirst ← checkLine isTriMat r.nvalsFirst r.lineCtPrev lineCt
  return ⟨buf, nvalsFirst, r.nvalsTotal + lineCt, lineCt⟩

/-- `parse_mat`. -/
def parseMat (text : CStr) (isTriMat : Bool) : Except Fault (Mat V) :=
  (words isBreak text).foldlM (readLine atof isTriMat) ⟨.init, 0, 0, 0⟩

/-! ### What a text says -/

/-- One value, or two with a comma between them. -/
def IsToken (tok : CStr) : Prop :=
  (tok.splitOnP isComma).length ≤ 2 ∧ ∀ val ∈ tok.splitOnP isComma, val ≠ []

instance (tok : CStr) : Decidable (IsToken tok) := inferInstanceAs (Decidable (_ ∧ _))

/-- The number of values of a token. -/
def width (tok : CStr) : ℕ := (tok.splitOnP isComma).length

/-- The number of values of some tokens. -/
def numVals (toks : List CStr) : ℕ := (toks.map width).sum

/-- The number of values on some lines. -/
def countOn (lines : List CStr) : ℕ := (lines.map fun line => numVals (words isBlank line)).sum

/-- The values of some lines, in order. -/
def values (lines : List CStr) : List V :=
  lines.flatMap fun line => (words isBlank line).flatMap fun tok => (tok.splitOnP isComma).map atof

/-- The lines of a text, some of which may be empty. -/
def linesOf (text : CStr) : List CStr := text.splitOnP isBreak

/-- A text is read right: no value is written behind the end of the buffer, and if it is accepted,
all its values are there, with their number and the number on the first line. -/
def ReadRight (text : CStr) (isTriMat : Bool) : Prop :=
  parseMat atof text isTriMat ≠ .error .overflow ∧
    ∀ r, parseMat atof text isTriMat = .ok r →
      (∀ i < r.nvalsTotal, r.buf.vals i = (values atof (linesOf text))[i]?) ∧
      r.nvalsTotal = (values atof (linesOf text)).length ∧
      r.nvalsFirst = countOn ((linesOf text).take 1)

/-! ### What the calls of `strtok_r` find -/

variable {p : Char → Bool}

theorem splitOnP_free {s w : CStr} (hw : w ∈ s.splitOnP p) : ∀ c ∈ w, p c = false := by
  induction s generalizing w with
  | nil =>
    obtain rfl : w = [] := by simpa using hw
    exact fun c hc => (nomatch hc)
  | cons c s ih =>
    rw [List.splitOnP_cons_eq_if_modifyHead] at hw
    split_ifs at hw with hc
    · obtain rfl | hw := List.mem_cons.1 hw
      · exact fun c hc => (nomatch hc)
      · exact ih hw
    · cases hsplit : s.splitOnP p with
      | nil => exact absurd hsplit (List.splitOnP_ne_nil _ _)
      | cons v vs =>
        rw [hsplit, List.modifyHead_cons] at hw
        obtain rfl | hw := List.mem_cons.1 hw
        · intro b hb
          obtain rfl | hb := List.mem_cons.1 hb
          · simpa using hc
          · exact ih (hsplit ▸ List.mem_cons_self) b hb
        · exact ih (hsplit ▸ List.mem_cons_of_mem _ hw)

theorem words_free {s w : CStr} (hw : w ∈ words p s) : ∀ c ∈ w, p c = false :=
  splitOnP_free (List.mem_filter.1 hw).1

/-- What is not empty and has no delimiter is one token. -/
theorem words_eq_singleton {s : CStr} (hs : s ≠ [])
    (hfree : ∀ c ∈ s, p c = false) : words p s = [s] := by
  rw [words, List.splitOnP_eq_singleton hfree]
  simpa using hs

/-- A text has no delimiter, or is cut at the first one. -/
theorem splitOnP_cases (p : Char → Bool) (s : CStr) :
    (∀ c ∈ s, p c = false) ∨ ∃ (v : CStr) (sep : Char) (rest : CStr), s = v ++ sep :: rest ∧
      (∀ c ∈ v, p c = false) ∧ p sep = true ∧ s.splitOnP p = v :: rest.splitOnP p := by
  cases hdrop : s.dropWhile (!p ·) with
  | nil => exact .inl fun c hc => by simpa using List.dropWhile_eq_nil_iff.1 hdrop c hc
  | cons sep rest =>
    have hs : s = s.takeWhile (!p ·) ++ sep :: rest := by
      rw [← hdrop, List.takeWhile_append_dropWhile]
    have hfree : ∀ c ∈ s.takeWhile (!p ·), p c = false := by
      intro c hc
      simpa using List.mem_takeWhile_imp hc
    have hsep : p sep = true := by
      have hhead := List.head_dropWhile_not (!p ·) (l := s) (by rw [hdrop]; simp)
      simpa [hdrop] using hhead
    refine .inr ⟨s.takeWhile (!p ·), sep, rest, hs, hfree, hsep, ?_⟩
    conv_lhs => rw [hs]
    exact List.splitOnP_append_cons_of_forall_mem hfree sep hsep rest

/-- A token that is not empty is found if a delimiter or nothing follows it. -/
theorem strtokR_append {v : CStr} (hv : v ≠ []) (hfree : ∀ c ∈ v, p c = false)
    (rest : CStr) (hrest : ∀ c ∈ rest.head?, p c = true) :
    strtokR p (v ++ rest) = some (v, rest.tail) := by
  cases v with
  | nil => exact absurd rfl hv
  | cons c v =>
    have hall : ∀ b ∈ c :: v, (!p b) = true := fun b hb => by simp [hfree b hb]
    have htake : rest.takeWhile (!p ·) = [] := by
      cases rest with
      | nil => rfl
      | cons b rest => simp [hrest b rfl]
    have hdrop : rest.dropWhile (!p ·) = rest := by
      cases rest with
      | nil => rfl
      | cons b rest => simp [hrest b rfl]
    have hskip : (c :: v ++ rest).dropWhile p = c :: (v ++ rest) := by
      simp [hfree c List.mem_cons_self]
    unfold strtokR
    rw [hskip]
    dsimp only
    rw [← List.cons_append, List.takeWhile_append_of_pos hall, List.dropWhile_append_of_pos hall,
      htake, hdrop, List.append_nil]

theorem tokenVals_eq {tok : CStr} (htok : IsToken tok) (hblank : ∀ c ∈ tok, isBlank c = false) :
    tokenVals tok = tok.splitOnP isComma := by
  obtain ⟨hlen, hne⟩ := htok
  obtain hfree | ⟨v, sep, rest, rfl, hv, hsep, hsplit⟩ := splitOnP_cases isComma tok
  · have hsplit := List.splitOnP_eq_singleton hfree
    have hfound := strtokR_append (hne tok (by simp [hsplit])) hfree [] (by simp)
    rw [List.append_nil] at hfound
    simp [tokenVals, hfound, hsplit, words]
  · rw [hsplit] at hlen hne ⊢
    have hfound := strtokR_append (hne v List.mem_cons_self) hv (sep :: rest)
      (by simpa using hsep)
    have hrest : rest.splitOnP isComma = [rest] := by
      obtain hfree | ⟨v', sep', rest', -, -, -, hsplit'⟩ := splitOnP_cases isComma rest
      · exact List.splitOnP_eq_singleton hfree
      · have hpos := List.length_pos_iff.2 (List.splitOnP_ne_nil isComma rest')
        rw [hsplit'] at hlen
        simp only [List.length_cons] at hlen
        omega
    rw [hrest] at hne ⊢
    have hwords : words isBlank rest = [rest] :=
      words_eq_singleton (hne rest (by simp)) fun c hc => hblank c (by simp [hc])
    simp only [tokenVals, hfound, List.tail_cons, hwords]

/-! ### The size of the buffer -/

/-- A token with `n` values may start behind `c` values: it is no pair one place before a full
buffer, and the size has not outgrown its type. -/
def Fits (c n : ℕ) : Prop := c < 2 ^ 30 ∧ ¬(n = 2 ∧ ∃ k, c + 1 = 128 * 2 ^ k)

/-- The size was doubled as often as it had to be for `c` values. -/
def Tight (bufn : ℤ) (c : ℕ) : Prop :=
  ∃ k ≤ 23, bufn = (128 * 2 ^ k : ℕ) ∧ c ≤ 128 * 2 ^ k ∧ (k = 0 ∨ 64 * 2 ^ k < c)

variable {atof} {m : Buf V} {c n : ℕ}

theorem grow_of_lt (h : c < m.bufn) : m.grow c = m := if_neg (by omega)

theorem grow_of_full {k : ℕ} (hk : k < 23) (hbufn : m.bufn = (128 * 2 ^ k : ℕ)) :
    (m.grow (128 * 2 ^ k)).bufn = (128 * 2 ^ (k + 1) : ℕ) := by
  have hpow : 2 ^ k ≤ 2 ^ 22 := Nat.pow_le_pow_right (by omega) (by omega)
  rw [Buf.grow, if_pos hbufn.le, hbufn, Int.bmod_eq_of_le (by omega) (by omega), pow_succ]
  push_cast
  ring

theorem grow_of_largest (hbufn : m.bufn = (128 * 2 ^ 23 : ℕ)) :
    (m.grow (128 * 2 ^ 23)).bufn = -2 ^ 31 := by
  rw [Buf.grow, if_pos hbufn.le, hbufn]
  rfl

theorem not_pow_succ (k j : ℕ) : 128 * 2 ^ k + 1 ≠ 128 * 2 ^ j := by omega

/-- A token that may start there is in the buffer, and only then. -/
theorem grow_fits (h : Tight m.bufn c) (hn : n = 1 ∨ n = 2) (hfits : Fits c n) :
    Tight (m.grow c).bufn (c + n) := by
  obtain ⟨k, hk, hbufn, hc, hlow⟩ := h
  obtain hfull | hroom := hc.eq_or_lt
  · have hk : k < 23 := by
      by_contra hlast
      obtain rfl : k = 23 := by omega
      have := hfits.1
      omega
    subst hfull
    refine ⟨k + 1, hk, grow_of_full hk hbufn, ?_, .inr ?_⟩
    · have hpos := Nat.one_le_two_pow (n := k)
      rw [pow_succ]
      omega
    · rw [pow_succ]
      omega
  · rw [grow_of_lt (by omega)]
    refine ⟨k, hk, hbufn, ?_, hlow.imp_right fun hlow => by omega⟩
    obtain rfl | rfl := hn
    · exact hroom
    · have hne : c + 1 ≠ 128 * 2 ^ k := fun heq => hfits.2 ⟨rfl, k, heq⟩
      omega

theorem grow_not_fits (h : Tight m.bufn c) (hn : n = 1 ∨ n = 2) (hfits : ¬ Fits c n) :
    (m.grow c).bufn < c + n := by
  obtain ⟨k, hk, hbufn, hc, hlow⟩ := h
  have hpow : 2 ^ k ≤ 2 ^ 23 := Nat.pow_le_pow_right (by omega) hk
  obtain hfull | hroom := hc.eq_or_lt
  · -- only a buffer that cannot be doubled any more is too small
    obtain hk | rfl : k < 23 ∨ k = 23 := by omega
    · have hpow : 2 ^ k ≤ 2 ^ 22 := Nat.pow_le_pow_right (by omega) (by omega)
      refine absurd ⟨by omega, ?_⟩ hfits
      rintro ⟨-, j, hj⟩
      exact not_pow_succ k j (hfull ▸ hj)
    · rw [hfull, grow_of_largest hbufn]
      omega
  · rw [grow_of_lt (by omega), hbufn]
    have hpair : n = 2 ∧ ∃ j, c + 1 = 128 * 2 ^ j := by
      by_contra hpair
      exact hfits ⟨by omega, hpair⟩
    obtain ⟨rfl, j, hj⟩ := hpair
    obtain hjk | hkj := lt_or_ge j k
    · have hpow : 2 ^ (j + 1) ≤ 2 ^ k := Nat.pow_le_pow_right (by omega) hjk
      rw [pow_succ] at hpow
      omega
    · have hpow : 2 ^ k ≤ 2 ^ j := Nat.pow_le_pow_right (by omega) hkj
      have hlt : 128 * 2 ^ k < c + 2 := by omega
      exact_mod_cast hlt

/-! ### What is stored -/

variable {vs : List V} {total lineCt : ℕ}

/-- The values `vs` are in the buffer, and no more. -/
def Buf.Holds (m : Buf V) (vs : List V) : Prop := ∀ i, m.vals i = vs[i]?

theorem Buf.Holds.grow (h : m.Holds vs) (c : ℕ) : (m.grow c).Holds vs := by
  unfold Buf.grow
  split_ifs <;> exact h

theorem Buf.Holds.store (h : m.Holds vs) (v : V) :
    Buf.Holds { m with vals := update m.vals vs.length (some v) } (vs ++ [v]) := by
  intro i
  obtain rfl | hi := eq_or_ne i vs.length
  · simp
  · change update m.vals vs.length (some v) i = _
    rw [update_of_ne hi, h i]
    obtain hlt | hgt := hi.lt_or_gt
    · rw [List.getElem?_append_left hlt]
    · have hlen : (vs ++ [v]).length ≤ i := by
        rw [List.length_append, List.length_singleton]
        omega
      rw [List.getElem?_eq_none hgt.le, List.getElem?_eq_none hlen]

variable (atof) in
/-- The values of a token are stored behind the ones before it. -/
theorem storeVals_eq_ok {l : List CStr} (h : m.Holds vs) (hlen : lineCt + total = vs.length)
    (hroom : vs.length + l.length ≤ m.bufn) : ∃ m', storeVals atof total m lineCt l =
      .ok (m', lineCt + l.length) ∧ m'.Holds (vs ++ l.map atof) ∧ m'.bufn = m.bufn := by
  induction l generalizing m vs lineCt with
  | nil => exact ⟨m, rfl, by simpa using h, rfl⟩
  | cons val l ih =>
    rw [List.length_cons] at hroom
    push_cast at hroom
    have hlt : ((lineCt + total : ℕ) : ℤ) < m.bufn := by omega
    have hlen' : lineCt + 1 + total = (vs ++ [atof val]).length := by
      rw [List.length_append, List.length_singleton]
      omega
    obtain ⟨m', hrest, hholds, hbufn⟩ := ih (h.store (atof val)) hlen'
      (by rw [List.length_append, List.length_singleton]; push_cast; omega)
    refine ⟨m', ?_, by simpa using hholds, hbufn⟩
    rw [storeVals, Buf.store, if_pos hlt, hlen]
    change storeVals _ _ _ _ _ = _
    rw [hrest, List.length_cons, Nat.add_assoc, Nat.add_comm 1]

/-- A token that is not empty is too long for the buffer. -/
theorem storeVals_eq_error {l : List CStr} (h : m.Holds vs) (hlen : lineCt + total = vs.length)
    (hne : l ≠ []) (hroom : m.bufn < vs.length + l.length) :
    storeVals atof total m lineCt l = .error .overflow := by
  induction l generalizing m vs lineCt with
  | nil => exact absurd rfl hne
  | cons val l ih =>
    rw [storeVals, Buf.store]
    rw [List.length_cons] at hroom
    push_cast at hroom
    by_cases hlt : ((lineCt + total : ℕ) : ℤ) < m.bufn
    · rw [if_pos hlt, hlen]
      have hl : l ≠ [] := by
        rintro rfl
        rw [List.length_nil] at hroom
        omega
      exact ih (h.store (atof val)) (by rw [List.length_append, List.length_singleton]; omega) hl
        (by rw [List.length_append, List.length_singleton]; push_cast; omega)
    · rw [if_neg hlt]
      rfl

/-- The tokens fit one after the other, the first one behind `c` values. -/
def FitAll (c : ℕ) : List CStr → Prop
  | [] => True
  | tok :: toks => Fits c (width tok) ∧ FitAll (c + width tok) toks

theorem width_of_isToken {tok : CStr} (h : IsToken tok) : width tok = 1 ∨ width tok = 2 := by
  have hpos := List.length_pos_iff.2 (List.splitOnP_ne_nil isComma tok)
  have hle := h.1
  unfold width
  omega

theorem numVals_cons (tok : CStr) (toks : List CStr) :
    numVals (tok :: toks) = width tok + numVals toks := by
  rw [numVals, List.map_cons, List.sum_cons]
  rfl

variable {toks : List CStr}

theorem readTokens_eq_ok (htoks : ∀ tok ∈ toks, IsToken tok ∧ ∀ c ∈ tok, isBlank c = false)
    (h : m.Holds vs) (hlen : lineCt + total = vs.length) (htight : Tight m.bufn vs.length)
    (hfit : FitAll vs.length toks) : ∃ m', readTokens atof total m lineCt toks =
      .ok (m', lineCt + numVals toks) ∧
      m'.Holds (vs ++ toks.flatMap fun tok => (tok.splitOnP isComma).map atof) ∧
      Tight m'.bufn (vs.length + numVals toks) := by
  induction toks generalizing m vs lineCt with
  | nil => exact ⟨m, rfl, by simpa using h, htight⟩
  | cons tok toks ih =>
    obtain ⟨htok, hblank⟩ := htoks tok List.mem_cons_self
    have hgrow := grow_fits htight (width_of_isToken htok) hfit.1
    have hroom : vs.length + (tok.splitOnP isComma).length ≤ (m.grow vs.length).bufn := by
      obtain ⟨k, -, hbufn, hle, -⟩ := hgrow
      rw [hbufn]
      exact_mod_cast hle
    obtain ⟨m', hstore, hholds, hbufn⟩ :=
      storeVals_eq_ok atof (h.grow vs.length) hlen hroom
    have hlen' : (vs ++ (tok.splitOnP isComma).map atof).length = vs.length + width tok := by
      rw [List.length_append, List.length_map, width]
    have hnext : lineCt + width tok + total =
        (vs ++ (tok.splitOnP isComma).map atof).length := by
      rw [hlen']
      omega
    obtain ⟨m'', hrest, hholds', htight'⟩ := ih (fun t ht => htoks t (List.mem_cons_of_mem _ ht))
      hholds hnext (by rw [hlen', hbufn]; exact hgrow) (by rw [hlen']; exact hfit.2)
    refine ⟨m'', ?_, by simpa using hholds', ?_⟩
    · rw [readTokens, hlen, tokenVals_eq htok hblank, hstore, numVals_cons, ← Nat.add_assoc]
      exact hrest
    · rw [numVals_cons, ← Nat.add_assoc, ← hlen']
      exact htight'

theorem readTokens_eq_error (htoks : ∀ tok ∈ toks, IsToken tok ∧ ∀ c ∈ tok, isBlank c = false)
    (h : m.Holds vs) (hlen : lineCt + total = vs.length) (htight : Tight m.bufn vs.length)
    (hfit : ¬ FitAll vs.length toks) :
    readTokens atof total m lineCt toks = .error .overflow := by
  induction toks generalizing m vs lineCt with
  | nil => exact absurd trivial hfit
  | cons tok toks ih =>
    obtain ⟨htok, hblank⟩ := htoks tok List.mem_cons_self
    rw [readTokens, hlen, tokenVals_eq htok hblank]
    by_cases hfirst : Fits vs.length (width tok)
    · have hgrow := grow_fits htight (width_of_isToken htok) hfirst
      have hroom : vs.length + (tok.splitOnP isComma).length ≤ (m.grow vs.length).bufn := by
        obtain ⟨k, -, hbufn, hle, -⟩ := hgrow
        rw [hbufn]
        exact_mod_cast hle
      obtain ⟨m', hstore, hholds, hbufn⟩ :=
        storeVals_eq_ok atof (h.grow vs.length) hlen hroom
      have hlen' : (vs ++ (tok.splitOnP isComma).map atof).length = vs.length + width tok := by
        rw [List.length_append, List.length_map, width]
      rw [hstore]
      refine ih (fun t ht => htoks t (List.mem_cons_of_mem _ ht)) hholds ?_ ?_ ?_
      · rw [hlen', width]
        omega
      · rw [hlen', hbufn]
        exact hgrow
      · rw [hlen']
        exact fun hrest => hfit ⟨hfirst, hrest⟩
    · have hroom := grow_not_fits htight (width_of_isToken htok) hfirst
      rw [storeVals_eq_error (h.grow vs.length) hlen (List.splitOnP_ne_nil _ _) hroom]
      rfl

/-! ### Lines -/

variable {lines rest : List CStr} {line text : CStr} {isTriMat : Bool} {r : Mat V}

@[simp] theorem countOn_nil : countOn [] = 0 := rfl

theorem countOn_append (l l' : List CStr) : countOn (l ++ l') = countOn l + countOn l' := by
  rw [countOn, List.map_append, List.sum_append]
  rfl

theorem countOn_singleton (line : CStr) : countOn [line] = numVals (words isBlank line) := by
  simp [countOn]

theorem countOn_cons (line : CStr) (lines : List CStr) :
    countOn (line :: lines) = countOn [line] + countOn lines := countOn_append [line] lines

theorem values_append (l l' : List CStr) :
    values atof (l ++ l') = values atof l ++ values atof l' := List.flatMap_append

theorem values_singleton (line : CStr) : values atof [line] =
    (words isBlank line).flatMap fun tok => (tok.splitOnP isComma).map atof := by
  simp [values]

variable (atof) in
theorem length_values (lines : List CStr) : (values atof lines).length = countOn lines := by
  simp only [values, countOn, numVals, List.length_flatMap, List.length_map]
  rfl

/-- The number of values on the first line that has any. -/
def firstCount : List CStr → ℕ
  | [] => 0
  | line :: lines => if countOn [line] = 0 then firstCount lines else countOn [line]

theorem firstCount_eq_zero : firstCount lines = 0 ↔ countOn lines = 0 := by
  induction lines with
  | nil => simp [firstCount]
  | cons line lines ih =>
    rw [firstCount, countOn_cons line lines]
    split_ifs with h
    · rw [ih, h, Nat.zero_add]
    · omega

theorem firstCount_append (l : List CStr) (line : CStr) : firstCount (l ++ [line]) =
    if countOn l = 0 then countOn [line] else firstCount l := by
  induction l with
  | nil =>
    by_cases h : countOn [line] = 0 <;> simp [firstCount, h]
  | cons b l ih =>
    rw [List.cons_append, firstCount, firstCount, countOn_cons b l, ih]
    by_cases hb : countOn [b] = 0
    · simp [hb]
    · simp [hb]

/-- A line that has a value somewhere before it must have as many values as the last one, or one
less; this one has not. -/
def Rejects (isTriMat : Bool) (lines : List CStr) (line : CStr) : Prop :=
  countOn lines ≠ 0 ∧
    if isTriMat then (countOn [line] : ℤ) ≠ countOn lines.getLast?.toList - 1
    else countOn [line] ≠ countOn lines.getLast?.toList

/-- All of the lines after `lines` are accepted. -/
def Accepted (isTriMat : Bool) (lines : List CStr) : List CStr → Prop
  | [] => True
  | line :: rest => ¬ Rejects isTriMat lines line ∧ Accepted isTriMat (lines ++ [line]) rest

/-- The tokens of the lines after `lines` fit, up to the first line that is rejected. -/
def LinesFit (isTriMat : Bool) (lines : List CStr) : List CStr → Prop
  | [] => True
  | line :: rest => FitAll (countOn lines) (words isBlank line) ∧
      (¬ Rejects isTriMat lines line → LinesFit isTriMat (lines ++ [line]) rest)

/-- What is known after the lines `lines`. -/
structure Mat.Knows (atof : CStr → V) (r : Mat V) (lines : List CStr) : Prop where
  holds : r.buf.Holds (values atof lines)
  tight : Tight r.buf.bufn (countOn lines)
  first : r.nvalsFirst = firstCount lines
  total : r.nvalsTotal = countOn lines
  prev : r.lineCtPrev = countOn lines.getLast?.toList

variable (atof) in
theorem knows_nil : Mat.Knows atof ⟨.init, 0, 0, 0⟩ [] :=
  ⟨fun _ => rfl, ⟨0, by omega, rfl, by simp, .inl rfl⟩, rfl, rfl, rfl⟩

theorem Mat.Knows.checkLine_eq (h : r.Knows atof lines) (line : CStr) :
    (Rejects isTriMat lines line →
      checkLine isTriMat r.nvalsFirst r.lineCtPrev (countOn [line]) = .error .mismatch) ∧
    (¬ Rejects isTriMat lines line →
      checkLine isTriMat r.nvalsFirst r.lineCtPrev (countOn [line]) =
        .ok (firstCount (lines ++ [line]))) := by
  rw [firstCount_append, checkLine, h.first, h.prev]
  simp only [firstCount_eq_zero, Rejects]
  cases isTriMat <;> split_ifs <;> simp_all

variable (isTriMat) in
/-- A line is read, or rejected, or written behind the end of the buffer. -/
theorem readLine_spec (h : r.Knows atof lines) (htoks : ∀ tok ∈ words isBlank line, IsToken tok) :
    (¬ FitAll (countOn lines) (words isBlank line) →
      readLine atof isTriMat r line = .error .overflow) ∧
    (FitAll (countOn lines) (words isBlank line) → Rejects isTriMat lines line →
      readLine atof isTriMat r line = .error .mismatch) ∧
    (FitAll (countOn lines) (words isBlank line) → ¬ Rejects isTriMat lines line →
      ∃ r', readLine atof isTriMat r line = .ok r' ∧ r'.Knows atof (lines ++ [line])) := by
  have htoks' : ∀ tok ∈ words isBlank line, IsToken tok ∧ ∀ c ∈ tok, isBlank c = false :=
    fun tok htok => ⟨htoks tok htok, words_free htok⟩
  have hlen : 0 + r.nvalsTotal = (values atof lines).length := by
    rw [h.total, length_values, Nat.zero_add]
  have htight : Tight r.buf.bufn (values atof lines).length := by
    rw [length_values]
    exact h.tight
  rw [← length_values atof]
  refine ⟨fun hfit => ?_, fun hfit hrej => ?_, fun hfit hacc => ?_⟩
  · rw [readLine, readTokens_eq_error htoks' h.holds hlen htight hfit]
    rfl
  · obtain ⟨m', hread, -, -⟩ := readTokens_eq_ok htoks' h.holds hlen htight hfit
    rw [readLine, hread]
    have hcheck := (h.checkLine_eq line).1 hrej
    rw [countOn_singleton] at hcheck
    change (checkLine _ _ _ _ >>= _) = _
    rw [Nat.zero_add, hcheck]
    rfl
  · obtain ⟨m', hread, hholds, htight'⟩ := readTokens_eq_ok htoks' h.holds hlen htight hfit
    rw [readLine, hread]
    have hcheck := (h.checkLine_eq line).2 hacc
    rw [countOn_singleton] at hcheck
    refine ⟨⟨m', firstCount (lines ++ [line]), r.nvalsTotal + numVals (words isBlank line),
      numVals (words isBlank line)⟩, ?_, ?_, ?_, rfl, ?_, ?_⟩
    · change (checkLine _ _ _ _ >>= _) = _
      rw [Nat.zero_add, hcheck]
      rfl
    · rw [values_append, values_singleton]
      exact hholds
    · rw [countOn_append, countOn_singleton]
      rwa [length_values] at htight'
    · rw [countOn_append, countOn_singleton, h.total]
    · rw [List.getLast?_concat, Option.toList_some, countOn_singleton]

variable (isTriMat) in
/-- All lines are read, or one is rejected, or one is written behind the end of the buffer. -/
theorem readLines_spec (h : r.Knows atof lines)
    (htoks : ∀ line ∈ rest, ∀ tok ∈ words isBlank line, IsToken tok) :
    (¬ LinesFit isTriMat lines rest →
      rest.foldlM (readLine atof isTriMat) r = .error .overflow) ∧
    (LinesFit isTriMat lines rest → ¬ Accepted isTriMat lines rest →
      rest.foldlM (readLine atof isTriMat) r = .error .mismatch) ∧
    (LinesFit isTriMat lines rest → Accepted isTriMat lines rest →
      ∃ r', rest.foldlM (readLine atof isTriMat) r = .ok r' ∧ r'.Knows atof (lines ++ rest)) := by
  induction rest generalizing lines r with
  | nil =>
    exact ⟨fun h => absurd trivial h, fun _ h => absurd trivial h,
      fun _ _ => ⟨r, rfl, by rwa [List.append_nil]⟩⟩
  | cons line rest ih =>
    obtain ⟨hover, hrej, hread⟩ :=
      readLine_spec isTriMat h (htoks line List.mem_cons_self)
    rw [List.foldlM_cons]
    by_cases hfit : FitAll (countOn lines) (words isBlank line)
    · by_cases hacc : Rejects isTriMat lines line
      · rw [hrej hfit hacc]
        exact ⟨fun h => absurd ⟨hfit, fun h' => absurd hacc h'⟩ h, fun _ _ => rfl,
          fun _ h => absurd hacc h.1⟩
      · obtain ⟨r', hr', hknows⟩ := hread hfit hacc
        obtain ⟨hover', hrej', hread'⟩ :=
          ih hknows fun l hl => htoks l (List.mem_cons_of_mem _ hl)
        rw [hr']
        refine ⟨fun h => hover' fun hrest => h ⟨hfit, fun _ => hrest⟩,
          fun h hnot => hrej' (h.2 hacc) fun hrest => hnot ⟨hacc, hrest⟩, fun h hall => ?_⟩
        obtain ⟨r'', hr'', hknows'⟩ := hread' (h.2 hacc) hall.2
        rw [List.append_assoc] at hknows'
        exact ⟨r'', hr'', hknows'⟩
    · rw [hover hfit]
      exact ⟨fun _ => rfl, fun h => absurd h.1 hfit, fun h => absurd h.1 hfit⟩

/-! ### Empty lines -/

theorem countOn_words (l : List CStr) :
    countOn (l.filter fun line => !line.isEmpty) = countOn l := by
  induction l with
  | nil => rfl
  | cons line l ih =>
    rw [countOn_cons line l]
    cases line with
    | nil => simpa [countOn, words, numVals] using ih
    | cons c line =>
      rw [List.filter_cons_of_pos rfl, countOn_cons _ (l.filter _), ih]

theorem firstCount_words (l : List CStr) :
    firstCount (l.filter fun line => !line.isEmpty) = firstCount l := by
  induction l with
  | nil => rfl
  | cons line l ih =>
    rw [firstCount]
    cases line with
    | nil => simpa [countOn, words, numVals] using ih
    | cons c line => rw [List.filter_cons_of_pos rfl, firstCount, ih]

theorem values_words (l : List CStr) :
    values atof (l.filter fun line => !line.isEmpty) = values atof l := by
  induction l with
  | nil => rfl
  | cons line l ih =>
    cases line with
    | nil => simpa [values, words] using ih
    | cons c line =>
      rw [List.filter_cons_of_pos rfl]
      simpa only [values, List.flatMap_cons] using congrArg _ ih

/-- **Reading is right just if** no pair starts one place before the buffer is full and no token
starts behind `2 ^ 30` values, in the lines up to the first one that is rejected; and, if none is,
the first line has a value or no line has one. -/
theorem parseMat_right_iff (atof : CStr → V) (text : CStr) (isTriMat : Bool)
    (htoks : ∀ line ∈ linesOf text, ∀ tok ∈ words isBlank line, IsToken tok) :
    ReadRight atof text isTriMat ↔ LinesFit isTriMat [] (words isBreak text) ∧
      (Accepted isTriMat [] (words isBreak text) →
        countOn ((linesOf text).take 1) ≠ 0 ∨ countOn (linesOf text) = 0) := by
  have hwords : ∀ line ∈ words isBreak text, ∀ tok ∈ words isBlank line, IsToken tok :=
    fun line hline => htoks line (List.mem_filter.1 hline).1
  obtain ⟨hover, hrej, hread⟩ := readLines_spec isTriMat (knows_nil atof) hwords
  have hfirst : firstCount (words isBreak text) = countOn ((linesOf text).take 1) ↔
      countOn ((linesOf text).take 1) ≠ 0 ∨ countOn (linesOf text) = 0 := by
    rw [words, firstCount_words, ← linesOf]
    cases hlines : linesOf text with
    | nil => simp [firstCount]
    | cons line rest =>
      rw [List.take_succ_cons, List.take_zero, firstCount, countOn_cons line rest]
      split_ifs with hline
      · simp [hline, firstCount_eq_zero]
      · simp [hline]
  unfold ReadRight parseMat
  by_cases hfit : LinesFit isTriMat [] (words isBreak text)
  · by_cases hacc : Accepted isTriMat [] (words isBreak text)
    · obtain ⟨r, hr, hknows⟩ := hread hfit hacc
      rw [List.nil_append] at hknows
      have hholds := hknows.holds
      have htotal := hknows.total
      rw [words, values_words] at hholds
      rw [words, countOn_words, ← length_values atof] at htotal
      rw [hr, ← hfirst, ← hknows.first]
      constructor
      · rintro ⟨-, h⟩
        exact ⟨hfit, fun _ => (h r rfl).2.2⟩
      · rintro ⟨-, h⟩
        refine ⟨by simp, fun r' hr' => ?_⟩
        obtain rfl : r = r' := Except.ok.inj hr'
        exact ⟨fun i _ => hholds i, htotal, h hacc⟩
    · rw [hrej hfit hacc]
      simp [hfit, hacc]
  · rw [hover hfit]
    simp [hfit]

/-- The number that a text of digits says. -/
def digitsOf (val : CStr) : ℕ := val.foldl (fun n c => 10 * n + (c.toNat - 48)) 0

/-- Two lines of a value and a pair. -/
def mixedLines : CStr := ['1', ' ', '2', ',', '3', '\n', '4', '\t', '5', ',', '6', '\n']

theorem parseMat_right_iff_mixedLines : ReadRight digitsOf mixedLines false ↔
    LinesFit false [] (words isBreak mixedLines) ∧
      (Accepted false [] (words isBreak mixedLines) →
        countOn ((linesOf mixedLines).take 1) ≠ 0 ∨ countOn (linesOf mixedLines) = 0) :=
  parseMat_right_iff digitsOf mixedLines false (by decide)

/-- A line of 127 values and a pair. -/
def fullBuffer : CStr := (List.replicate 127 ['7', ' ']).flatten ++ ['7', ',', '7']

theorem fullBuffer_not_right :
    (∀ line ∈ linesOf fullBuffer, ∀ tok ∈ words isBlank line, IsToken tok) ∧
      ¬ ReadRight digitsOf fullBuffer false := by
  refine ⟨by decide +kernel, fun h => h.1 ?_⟩
  have hrun : (match parseMat digitsOf fullBuffer false with
      | .error .overflow => true
      | _ => false) = true := by decide +kernel
  cases hparse : parseMat digitsOf fullBuffer false with
  | ok r => simp [hparse] at hrun
  | error e => cases e <;> simp_all

end CodesSim.SimpleP2P
