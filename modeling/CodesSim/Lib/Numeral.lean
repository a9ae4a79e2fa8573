import Mathlib.Algebra.Field.Rat
import Mathlib.Data.List.TakeWhile

/-!
# Numerals and how they are read

A numeral without its sign is made of digits, which may have a point among them, and perhaps an
exponent.  `scan` reads one at the start of a text (`scan_sound`), the longest there is
(`scan_longest`), and the one that is written there if what follows does not go on with it
(`scan_stops`).  `scanSigned` reads a sign and a lead, such as that of another base, before it.
-/

namespace CodesSim.Numeral

/-- How the numerals of some base are written. -/
structure Style where
  base : ℕ
  digit : Char → Bool
  digitVal : Char → ℕ
  /-- The characters that introduce an exponent, and its base. -/
  mark : Char → Bool
  expBase : ℕ
  mark_not_digit : ∀ c, mark c = true → digit c = false
  sign_not_digit : digit '+' = false ∧ digit '-' = false
  point_not_digit : digit '.' = false
  point_not_mark : mark '.' = false

/-- No sign, or one. -/
def IsSign (sg : List Char) : Prop := sg = [] ∨ sg = ['+'] ∨ sg = ['-']

/-- A sign, and what follows it. -/
def splitSign : List Char → List Char × List Char
  | '-' :: l => (['-'], l)
  | '+' :: l => (['+'], l)
  | l => ([], l)

/-- An exponent: its mark, its sign and its digits. -/
structure Exponent where
  mark : Char
  sign : List Char
  digits : List Char

namespace Exponent

def text (e : Exponent) : List Char := e.mark :: (e.sign ++ e.digits)

structure Valid (st : Style) (e : Exponent) : Prop where
  mark : st.mark e.mark = true
  sign : IsSign e.sign
  digits : ∀ c ∈ e.digits, c.isDigit = true
  nonempty : e.digits ≠ []

end Exponent

/-- The parts of a numeral. -/
structure Parts where
  int : List Char
  /-- The digits behind the point, if there is one. -/
  frac : Option (List Char)
  exp : Option Exponent

/-- A point and the digits behind it. -/
def pointText : Option (List Char) → List Char
  | none => []
  | some ds => '.' :: ds

def expText : Option Exponent → List Char
  | none => []
  | some e => e.text

/-- The number that digits denote. -/
def ofDigits (base : ℕ) (val : Char → ℕ) (ds : List Char) : ℕ :=
  ds.foldl (fun n c => base * n + val c) 0

/-- The exponent as a number. -/
def expValue : Option Exponent → ℤ
  | none => 0
  | some e =>
    let n : ℤ := ofDigits 10 (fun c => c.toNat - '0'.toNat) e.digits
    if e.sign = ['-'] then -n else n

namespace Parts

def text (p : Parts) : List Char := p.int ++ (pointText p.frac ++ expText p.exp)

variable (st : Style)

structure Valid (p : Parts) : Prop where
  int : ∀ c ∈ p.int, st.digit c = true
  frac : ∀ ds, p.frac = some ds → ∀ c ∈ ds, st.digit c = true
  nonempty : p.int ++ p.frac.getD [] ≠ []
  exp : ∀ e, p.exp = some e → e.Valid st

/-- The number that a numeral denotes. -/
def value (p : Parts) : ℚ :=
  ofDigits st.base st.digitVal (p.int ++ p.frac.getD []) *
    (st.expBase : ℚ) ^ expValue p.exp / (st.base : ℚ) ^ (p.frac.getD []).length

end Parts

/-! ### Reading -/

variable (st : Style)

/-- Read a point and digits. -/
def scanPoint : List Char → Option (List Char) × List Char
  | '.' :: l => (some (l.takeWhile st.digit), l.dropWhile st.digit)
  | l => (none, l)

/-- Read an exponent, if there is a whole one. -/
def scanExp : List Char → Option Exponent × List Char
  | [] => (none, [])
  | c :: l =>
    let (sg, l') := splitSign l
    if st.mark c = true ∧ l'.takeWhile Char.isDigit ≠ [] then
      (some ⟨c, sg, l'.takeWhile Char.isDigit⟩, l'.dropWhile Char.isDigit)
    else (none, c :: l)

/-- Read a numeral: its parts, and what follows. -/
def scan (l : List Char) : Option (Parts × List Char) :=
  let int := l.takeWhile st.digit
  let (frac, l₁) := scanPoint st (l.dropWhile st.digit)
  let (exp, l₂) := scanExp st l₁
  if int ++ frac.getD [] = [] then none else some (⟨int, frac, exp⟩, l₂)

/-- A text does not go on with a numeral before it. -/
def Stops (r : List Char) : Prop :=
  ∀ c ∈ r.head?, st.digit c = false ∧ c.isDigit = false ∧ c ≠ '.' ∧ st.mark c = false

variable {st} {l r : List Char}

/-! ### Signs -/

theorem splitSign_spec (l : List Char) :
    IsSign (splitSign l).1 ∧ l = (splitSign l).1 ++ (splitSign l).2 := by
  unfold splitSign
  split
  · exact ⟨.inr (.inr rfl), rfl⟩
  · exact ⟨.inr (.inl rfl), rfl⟩
  · exact ⟨.inl rfl, rfl⟩

theorem splitSign_append {sg : List Char} (hsg : IsSign sg)
    (hl : ∀ c ∈ l.head?, c ≠ '+' ∧ c ≠ '-') : splitSign (sg ++ l) = (sg, l) := by
  obtain rfl | rfl | rfl := hsg
  · cases l with
    | nil => rfl
    | cons c l =>
      obtain ⟨hplus, hminus⟩ := hl c rfl
      rw [List.nil_append, splitSign]
      · exact fun _ h => hminus (List.cons.inj h).1
      · exact fun _ h => hplus (List.cons.inj h).1
  · rfl
  · rfl

/-! ### Digits -/

theorem takeWhile_eq_nil {q : Char → Bool} (h : ∀ c ∈ r.head?, q c = false) :
    r.takeWhile q = [] := by
  cases r with
  | nil => rfl
  | cons c r => exact List.takeWhile_cons_of_neg (by simp [h c rfl])

theorem dropWhile_eq_self {q : Char → Bool} (h : ∀ c ∈ r.head?, q c = false) :
    r.dropWhile q = r := by
  cases r with
  | nil => rfl
  | cons c r => exact List.dropWhile_cons_of_neg (by simp [h c rfl])

/-! ### Soundness -/

theorem scanPoint_sound (l : List Char) : l = pointText (scanPoint st l).1 ++ (scanPoint st l).2 ∧
    ∀ ds, (scanPoint st l).1 = some ds → ∀ c ∈ ds, st.digit c = true := by
  unfold scanPoint
  split
  · rename_i l
    refine ⟨?_, fun ds hds c hc => ?_⟩
    · exact congrArg ('.' :: ·) (List.takeWhile_append_dropWhile (p := st.digit) (l := l)).symm
    · cases hds
      exact List.mem_takeWhile_imp hc
  · exact ⟨rfl, fun ds hds => nomatch hds⟩

theorem scanExp_sound (l : List Char) : l = expText (scanExp st l).1 ++ (scanExp st l).2 ∧
    ∀ e, (scanExp st l).1 = some e → e.Valid st := by
  cases l with
  | nil => exact ⟨rfl, fun e he => nomatch he⟩
  | cons c l =>
    obtain ⟨hsign, hl⟩ := splitSign_spec l
    simp only [scanExp]
    split_ifs with h
    · refine ⟨?_, fun e he => ?_⟩
      · rw [expText, Exponent.text, List.cons_append, List.append_assoc,
          List.takeWhile_append_dropWhile, ← hl]
      · cases he
        exact ⟨h.1, hsign, fun d hd => List.mem_takeWhile_imp hd, h.2⟩
    · exact ⟨rfl, fun e he => nomatch he⟩

variable {p : Parts}

/-- **What is read is there.** -/
theorem scan_sound (h : scan st l = some (p, r)) : p.Valid st ∧ l = p.text ++ r := by
  obtain ⟨hpoint, hfrac⟩ := @scanPoint_sound st (l.dropWhile st.digit)
  obtain ⟨hexp, hvalid⟩ := @scanExp_sound st (scanPoint st (l.dropWhile st.digit)).2
  simp only [scan, Option.ite_none_left_eq_some, Option.some.injEq, Prod.mk.injEq] at h
  obtain ⟨hne, rfl, rfl⟩ := h
  refine ⟨⟨fun c hc => List.mem_takeWhile_imp hc, hfrac, hne, hvalid⟩, ?_⟩
  rw [Parts.text, List.append_assoc, List.append_assoc, ← hexp, ← hpoint,
    List.takeWhile_append_dropWhile]

/-! ### The longest numeral -/

theorem scanExp_append {e : Exponent} (he : e.Valid st) (r : List Char) :
    scanExp st (e.text ++ r) = (some { e with digits := e.digits ++ r.takeWhile Char.isDigit },
      r.dropWhile Char.isDigit) := by
  have hhead : ∀ c ∈ (e.digits ++ r).head?, c ≠ '+' ∧ c ≠ '-' := by
    intro c hc
    have hdigit : c.isDigit = true := by
      cases hds : e.digits with
      | nil => exact absurd hds he.nonempty
      | cons d ds =>
        rw [hds, List.cons_append, List.head?_cons, Option.mem_some_iff] at hc
        exact hc ▸ he.digits d (by simp [hds])
    constructor <;> rintro rfl <;> exact absurd hdigit (by decide)
  have hne : e.digits ++ r.takeWhile Char.isDigit ≠ [] := by simp [he.nonempty]
  rw [Exponent.text, List.cons_append, List.append_assoc, scanExp]
  simp only [splitSign_append he.sign hhead, List.takeWhile_append_of_pos he.digits,
    List.dropWhile_append_of_pos he.digits, he.mark, true_and, if_pos hne]

theorem scanExp_stops (h : Stops st r) : scanExp st r = (none, r) := by
  cases r with
  | nil => rfl
  | cons c r =>
    have hmark := (h c rfl).2.2.2
    simp only [scanExp, hmark, Bool.false_eq_true, false_and, if_false]

theorem scanPoint_of_ne (h : ∀ c ∈ r.head?, c ≠ '.') : scanPoint st r = (none, r) := by
  cases r with
  | nil => rfl
  | cons c r =>
    rw [scanPoint]
    exact fun _ heq => h c rfl (List.cons.inj heq).1

theorem scanPoint_append {frac : Option (List Char)}
    (hfrac : ∀ ds, frac = some ds → ∀ c ∈ ds, st.digit c = true)
    (hdigit : ∀ c ∈ r.head?, st.digit c = false) (hpoint : ∀ c ∈ r.head?, c ≠ '.') :
    scanPoint st (pointText frac ++ r) = (frac, r) := by
  cases frac with
  | none => exact scanPoint_of_ne hpoint
  | some ds =>
    have hds := hfrac ds rfl
    rw [pointText, List.cons_append, scanPoint, List.takeWhile_append_of_pos hds,
      List.dropWhile_append_of_pos hds, takeWhile_eq_nil hdigit, dropWhile_eq_self hdigit,
      List.append_nil]

theorem scan_int_point (hp : p.Valid st)
    (hdigit : ∀ c ∈ r.head?, st.digit c = false) (hpoint : ∀ c ∈ r.head?, c ≠ '.') :
    scan st (p.int ++ (pointText p.frac ++ r)) =
      some (⟨p.int, p.frac, (scanExp st r).1⟩, (scanExp st r).2) := by
  have hhead : ∀ c ∈ (pointText p.frac ++ r).head?, st.digit c = false := by
    cases p.frac with
    | none => exact hdigit
    | some ds =>
      rintro c ⟨⟩
      exact st.point_not_digit
  simp only [scan, List.takeWhile_append_of_pos hp.int, List.dropWhile_append_of_pos hp.int,
    takeWhile_eq_nil hhead, dropWhile_eq_self hhead, List.append_nil,
    scanPoint_append hp.frac hdigit hpoint, if_neg hp.nonempty]

theorem scan_of_exp {e : Exponent} (hp : p.Valid st) (he : p.exp = some e) (r : List Char) :
    scan st (p.text ++ r) = some (⟨p.int, p.frac,
      some { e with digits := e.digits ++ r.takeWhile Char.isDigit }⟩,
      r.dropWhile Char.isDigit) := by
  have hvalid := hp.exp e he
  have hmark : ∀ c ∈ (e.text ++ r).head?, st.digit c = false ∧ c ≠ '.' := by
    rintro c ⟨⟩
    refine ⟨st.mark_not_digit _ hvalid.mark, fun hpoint => ?_⟩
    exact absurd hvalid.mark (by rw [hpoint, st.point_not_mark]; exact Bool.false_ne_true)
  rw [Parts.text, List.append_assoc, List.append_assoc, he, expText,
    scan_int_point hp (fun c hc => (hmark c hc).1) (fun c hc => (hmark c hc).2),
    scanExp_append hvalid]

/-- **A numeral is read** before a text that does not go on with it. -/
theorem scan_stops (hp : p.Valid st) (hr : Stops st r) : scan st (p.text ++ r) = some (p, r) := by
  cases he : p.exp with
  | none =>
    rw [Parts.text, he, expText, List.append_nil, List.append_assoc,
      scan_int_point hp (fun c hc => (hr c hc).1) (fun c hc => (hr c hc).2.2.1),
      scanExp_stops hr, ← he]
  | some e =>
    have hdigit : ∀ c ∈ r.head?, c.isDigit = false := fun c hc => (hr c hc).2.1
    rw [scan_of_exp hp he, takeWhile_eq_nil hdigit, dropWhile_eq_self hdigit, List.append_nil,
      ← he]

theorem exists_scan (hne : l.takeWhile st.digit ++
    (scanPoint st (l.dropWhile st.digit)).1.getD [] ≠ []) :
    ∃ e r', scan st l = some (⟨l.takeWhile st.digit,
      (scanPoint st (l.dropWhile st.digit)).1, e⟩, r') :=
  ⟨_, _, if_neg hne⟩

/-- **What is read is no shorter** than any numeral at the start. -/
theorem scan_longest (hp : p.Valid st) (r : List Char) :
    ∃ q r', scan st (p.text ++ r) = some (q, r') ∧ p.text.length ≤ q.text.length := by
  have hne := hp.nonempty
  cases he : p.exp with
  | some e =>
    refine ⟨_, _, scan_of_exp hp he r, ?_⟩
    simp only [Parts.text, he, expText, Exponent.text, List.length_append, List.length_cons]
    omega
  | none =>
    cases hf : p.frac with
    | none =>
      have htext : p.text = p.int := by simp [Parts.text, he, hf, pointText, expText]
      have hint : (p.int ++ r).takeWhile st.digit = p.int ++ r.takeWhile st.digit :=
        List.takeWhile_append_of_pos hp.int
      rw [hf, Option.getD_none, List.append_nil] at hne
      rw [htext]
      obtain ⟨e, r', h⟩ := @exists_scan st (p.int ++ r) (by rw [hint]; simp [hne])
      refine ⟨_, _, h, ?_⟩
      simp only [Parts.text, hint, List.length_append]
      omega
    | some ds =>
      -- the digits in front end at the point, those behind it may go on
      have htext : p.text = p.int ++ '.' :: ds := by simp [Parts.text, he, hf, pointText, expText]
      have hhead : ∀ c ∈ ('.' :: (ds ++ r)).head?, st.digit c = false := by
        rintro c ⟨⟩
        exact st.point_not_digit
      have hint : (p.int ++ '.' :: (ds ++ r)).takeWhile st.digit = p.int := by
        rw [List.takeWhile_append_of_pos hp.int, takeWhile_eq_nil hhead, List.append_nil]
      have hdrop : (p.int ++ '.' :: (ds ++ r)).dropWhile st.digit = '.' :: (ds ++ r) := by
        rw [List.dropWhile_append_of_pos hp.int, dropWhile_eq_self hhead]
      have hpoint : (scanPoint st ('.' :: (ds ++ r))).1 = some (ds ++ r.takeWhile st.digit) :=
        congrArg some (List.takeWhile_append_of_pos (hp.frac ds hf))
      rw [hf, Option.getD_some] at hne
      rw [htext, List.append_assoc, List.cons_append]
      obtain ⟨e, r', h⟩ := @exists_scan st (p.int ++ '.' :: (ds ++ r)) (by
        rw [hint, hdrop, hpoint, Option.getD_some, ← List.append_assoc]
        exact List.append_ne_nil_of_left_ne_nil hne _)
      refine ⟨_, _, h, ?_⟩
      simp only [Parts.text, hint, hdrop, hpoint, pointText, List.length_append, List.length_cons]
      omega

/-! ### Signed numerals -/

/-- A number with a sign. -/
def signed (sg : List Char) (v : ℚ) : ℚ := if sg = ['-'] then -v else v

variable (st) in
/-- A sign, a lead and a numeral, and the number that they denote. -/
def Denotes (lead m : List Char) (v : ℚ) : Prop :=
  ∃ (sg : List Char) (p : Parts), IsSign sg ∧ p.Valid st ∧ m = sg ++ (lead ++ p.text) ∧
    v = signed sg (p.value st)

variable (st) in
/-- Read a sign, a lead and a numeral: the number, and what follows. -/
def scanSigned (lead l : List Char) : Option (ℚ × List Char) :=
  let (sg, body) := splitSign l
  if lead.isPrefixOf body then
    (scan st (body.drop lead.length)).map fun r => (signed sg (r.1.value st), r.2)
  else none

/-- A lead that no sign begins. -/
def NoSign (lead : List Char) : Prop := ∀ c ∈ lead.head?, c ≠ '+' ∧ c ≠ '-'

theorem Parts.Valid.head (hp : p.Valid st) (r : List Char) :
    ∃ c ∈ (p.text ++ r).head?, st.digit c = true ∨ c = '.' := by
  cases hint : p.int with
  | cons c int =>
    exact ⟨c, by simp [Parts.text, hint], .inl (hp.int c (by simp [hint]))⟩
  | nil =>
    cases hf : p.frac with
    | none => exact absurd (by simp [hint, hf]) hp.nonempty
    | some ds => exact ⟨'.', by simp [Parts.text, hint, hf, pointText], .inr rfl⟩

variable {lead : List Char}

theorem noSign_append (hlead : NoSign lead) (hp : p.Valid st)
    (r : List Char) : NoSign (lead ++ (p.text ++ r)) := by
  cases lead with
  | cons c lead => exact hlead
  | nil =>
    obtain ⟨c, hc, hdigit⟩ := hp.head r
    intro d hd
    obtain rfl : c = d := Option.mem_unique hc hd
    obtain hdigit | rfl := hdigit
    · have hsign := st.sign_not_digit
      constructor <;> rintro rfl
      · exact absurd hdigit (by simp [hsign.1])
      · exact absurd hdigit (by simp [hsign.2])
    · exact ⟨by decide, by decide⟩

theorem Parts.Valid.mem (hp : p.Valid st) {c : Char} (hc : c ∈ p.text) :
    st.digit c = true ∨ c = '.' ∨ st.mark c = true ∨ c = '+' ∨ c = '-' ∨ c.isDigit = true := by
  have hsigns : ∀ sg, IsSign sg → c ∈ sg → c = '+' ∨ c = '-' := by
    rintro sg (rfl | rfl | rfl) hc <;> simp_all
  rw [Parts.text, List.mem_append, List.mem_append] at hc
  obtain hc | hc | hc := hc
  · exact .inl (hp.int c hc)
  · cases hf : p.frac with
    | none => simp [hf, pointText] at hc
    | some ds =>
      rw [hf, pointText, List.mem_cons] at hc
      exact hc.elim (fun h => .inr (.inl h)) fun h => .inl (hp.frac ds hf c h)
  · cases he : p.exp with
    | none => simp [he, expText] at hc
    | some e =>
      have hvalid := hp.exp e he
      rw [he, expText, Exponent.text, List.mem_cons, List.mem_append] at hc
      obtain rfl | hc | hc := hc
      · exact .inr (.inr (.inl hvalid.mark))
      · exact .inr (.inr (.inr ((hsigns _ hvalid.sign hc).imp_right .inl)))
      · exact .inr (.inr (.inr (.inr (.inr (hvalid.digits c hc)))))

theorem scanSigned_append {sg : List Char} (hlead : NoSign lead) (hsg : IsSign sg)
    (hp : p.Valid st) (r : List Char) :
    scanSigned st lead (sg ++ (lead ++ p.text) ++ r) =
      (scan st (p.text ++ r)).map fun r => (signed sg (r.1.value st), r.2) := by
  have hbody : lead.isPrefixOf (lead ++ (p.text ++ r)) = true :=
    List.isPrefixOf_iff_prefix.mpr (List.prefix_append _ _)
  rw [List.append_assoc, List.append_assoc, scanSigned,
    splitSign_append hsg (noSign_append hlead hp r)]
  simp only [hbody, if_true, List.drop_left]

/-- **A signed numeral is read** before a text that does not go on with it. -/
theorem scanSigned_stops {m : List Char} {v : ℚ} (hlead : NoSign lead)
    (h : Denotes st lead m v) (hr : Stops st r) : scanSigned st lead (m ++ r) = some (v, r) := by
  obtain ⟨sg, p, hsg, hp, rfl, rfl⟩ := h
  rw [scanSigned_append hlead hsg hp, scan_stops hp hr, Option.map_some]

/-- **What is read is the longest** signed numeral at the start. -/
theorem scanSigned_spec {v : ℚ} (hlead : NoSign lead)
    (h : scanSigned st lead l = some (v, r)) : ∃ m, Denotes st lead m v ∧ l = m ++ r ∧
      ∀ m' v' r', Denotes st lead m' v' → l = m' ++ r' → m'.length ≤ m.length := by
  obtain ⟨hsg, hl⟩ := splitSign_spec l
  simp only [scanSigned, Option.ite_none_right_eq_some, Option.map_eq_some_iff] at h
  obtain ⟨hpre, ⟨p, r'⟩, hscan, heq⟩ := h
  obtain ⟨rfl, rfl⟩ := Prod.mk.inj heq
  obtain ⟨hp, hbody⟩ := scan_sound hscan
  obtain ⟨body, hpre⟩ := List.isPrefixOf_iff_prefix.mp hpre
  rw [← hpre, List.drop_left] at hbody hscan
  refine ⟨_, ⟨_, p, hsg, hp, rfl, rfl⟩, ?_, ?_⟩
  · rw [List.append_assoc, List.append_assoc, ← hbody, hpre, ← hl]
  · rintro m' v' s ⟨sg', p', hsg', hp', rfl, -⟩ hm'
    obtain ⟨q, t, hq, hlen⟩ := scan_longest hp' s
    have hsplit : splitSign l = (sg', lead ++ (p'.text ++ s)) := by
      rw [hm', List.append_assoc, List.append_assoc,
        splitSign_append hsg' (noSign_append hlead hp' s)]
    rw [hsplit] at hpre
    obtain rfl := List.append_cancel_left hpre
    obtain ⟨rfl, -⟩ := Prod.mk.inj (Option.some.inj (hscan.symm.trans hq))
    simp only [hsplit, List.length_append]
    omega

theorem scanSigned_none {m : List Char} {v : ℚ} (hlead : NoSign lead)
    (h : scanSigned st lead l = none) (hm : Denotes st lead m v) : l ≠ m ++ r := by
  rintro rfl
  obtain ⟨sg, p, hsg, hp, rfl, rfl⟩ := hm
  obtain ⟨q, t, hq, -⟩ := scan_longest hp r
  rw [scanSigned_append hlead hsg hp, hq, Option.map_some] at h
  exact absurd h (by simp)

end CodesSim.Numeral
