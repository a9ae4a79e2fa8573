import CodesSim.Config.UnitGrammar

/-!
# What is read of a value with a unit

What `strtod` reads at the start of a text (`strtod_cases`), and with it which texts are classified
and resolved as the grammar has them (`asDocumented_iff_clean`).
-/

namespace CodesSim.Config

namespace Units

open Numeral (Stops IsSign NoSign Denotes scanSigned splitSign_append splitSign_spec)

/-! ### Words -/

/-- `inf` or `nan`, in any case. -/
abbrev IsWord (w : CStr) : Prop :=
  w.map Char.toLower = ['i', 'n', 'f'] ∨ w.map Char.toLower = ['n', 'a', 'n']

theorem toLower_of_isDigit {c : Char} (h : c.isDigit = true) : c.toLower = c := by
  have hdigit : c.toNat ≤ 57 := by
    have h : 48 ≤ c.toNat ∧ c.toNat ≤ 57 := by
      simpa [Char.isDigit, UInt32.le_iff_toNat_le] using h
    exact h.2
  unfold Char.toLower
  split
  · rename_i hupper
    have hupper : 65 ≤ c.val.toNat := by
      simpa [UInt32.le_iff_toNat_le] using hupper.1
    have htoNat : c.val.toNat = c.toNat := rfl
    omega
  · rfl

theorem IsWord.head {w : CStr} (h : IsWord w) :
    ∃ c l, w = c :: l ∧ c ≠ '+' ∧ c ≠ '-' ∧ c ≠ '.' ∧ c.isDigit = false := by
  have hletter : ∀ c : Char, c.toLower = 'i' ∨ c.toLower = 'n' →
      c ≠ '+' ∧ c ≠ '-' ∧ c ≠ '.' ∧ c.isDigit = false := by
    intro c hc
    refine ⟨?_, ?_, ?_, Bool.eq_false_iff.mpr fun hdigit => ?_⟩
    · rintro rfl
      exact absurd hc (by decide)
    · rintro rfl
      exact absurd hc (by decide)
    · rintro rfl
      exact absurd hc (by decide)
    · rw [toLower_of_isDigit hdigit] at hc
      obtain rfl | rfl := hc <;> exact absurd hdigit (by decide)
  cases w with
  | nil => exact absurd h (by simp [IsWord])
  | cons c l =>
    refine ⟨c, l, rfl, hletter c ?_⟩
    exact h.imp (fun h => (List.cons.inj h).1) fun h => (List.cons.inj h).1

theorem dropWord_eq_some {word text rest : CStr} (h : dropWord word text = some rest) :
    ∃ w, w.map Char.toLower = word ∧ text = w ++ rest := by
  simp only [dropWord, Option.ite_none_right_eq_some, Option.some.injEq] at h
  obtain ⟨hword, rfl⟩ := h
  exact ⟨_, hword, (List.take_append_drop _ _).symm⟩

theorem dropWord_append {word w : CStr} (h : w.map Char.toLower = word) (r : CStr) :
    dropWord word (w ++ r) = some r := by
  have hlen : word.length = w.length := by rw [← h, List.length_map]
  rw [dropWord, hlen, List.take_left, List.drop_left, if_pos h]

theorem strtodWord_ne_none (u : CStr) : strtodWord u ≠ none ↔
    ∃ sg w r, IsSign sg ∧ IsWord w ∧ u = sg ++ (w ++ r) := by
  constructor
  · intro h
    obtain ⟨hsg, hu⟩ := splitSign_spec u
    simp only [strtodWord] at h
    cases hinf : dropWord ['i', 'n', 'f'] (Numeral.splitSign u).2 with
    | some r =>
      obtain ⟨w, hw, hbody⟩ := dropWord_eq_some hinf
      exact ⟨_, w, r, hsg, .inl hw, by rw [← hbody, ← hu]⟩
    | none =>
      simp only [hinf, ne_eq, Option.map_eq_none_iff] at h
      obtain ⟨r, hnan⟩ := Option.ne_none_iff_exists'.mp h
      obtain ⟨w, hw, hbody⟩ := dropWord_eq_some hnan
      exact ⟨_, w, r, hsg, .inr hw, by rw [← hbody, ← hu]⟩
  · rintro ⟨sg, w, r, hsg, hw, rfl⟩
    have hsign : NoSign (w ++ r) := by
      obtain ⟨c, l, rfl, hplus, hminus, -⟩ := hw.head
      rintro d ⟨⟩
      exact ⟨hplus, hminus⟩
    simp only [strtodWord, splitSign_append hsg hsign]
    cases hinf : dropWord ['i', 'n', 'f'] (w ++ r) with
    | some rest => simp
    | none =>
      obtain hw | hw := hw
      · rw [dropWord_append hw] at hinf
        cases hinf
      · simp [dropWord_append hw]

theorem read_of_word {sg w : CStr} (hsg : IsSign sg) (hw : IsWord w) (r : CStr) :
    scanSigned decimal [] (sg ++ (w ++ r)) = none := by
  obtain ⟨c, l, rfl, hplus, hminus, hpoint, hdigit⟩ := hw.head
  by_contra h
  obtain ⟨⟨d, rest⟩, hread⟩ := Option.ne_none_iff_exists'.mp h
  obtain ⟨m, ⟨sg', p, hsg', hp, rfl, -⟩, hs, -⟩ := Numeral.scanSigned_spec noSign_nil hread
  have hsplit : Numeral.splitSign (sg ++ (c :: l ++ r)) = (sg, c :: l ++ r) := by
    refine splitSign_append hsg ?_
    rintro d ⟨⟩
    exact ⟨hplus, hminus⟩
  rw [hs, List.append_assoc, List.append_assoc,
    splitSign_append hsg' (Numeral.noSign_append noSign_nil hp rest)] at hsplit
  obtain ⟨e, he, hhead⟩ := hp.head rest
  rw [← List.nil_append (p.text ++ rest), (Prod.mk.inj hsplit).2] at he
  obtain rfl := Option.some.inj he
  exact hhead.elim (fun h => absurd (h.symm.trans hdigit) (by decide)) hpoint

/-! ### Hexadecimal numerals -/

variable {m : CStr}

theorem lead_of_denotes {x : Char} {v : ℚ} (h : Denotes hexadecimal ['0', x] m v)
    (r : CStr) : ∃ sg t, IsSign sg ∧ m ++ r = sg ++ ('0' :: x :: t) := by
  obtain ⟨sg, p, hsg, -, rfl, -⟩ := h
  exact ⟨sg, p.text ++ r, hsg, by simp⟩

theorem lead_inj {sg sg' : CStr} {x x' : Char} {t t' : CStr} (hsg : IsSign sg) (hsg' : IsSign sg')
    (h : sg ++ ('0' :: x :: t) = sg' ++ ('0' :: x' :: t')) : x = x' := by
  have hsplit : Numeral.splitSign (sg ++ ('0' :: x :: t)) = (sg, '0' :: x :: t) :=
    splitSign_append hsg (noSign_zero x)
  have hsplit' : Numeral.splitSign (sg' ++ ('0' :: x' :: t')) = (sg', '0' :: x' :: t') :=
    splitSign_append hsg' (noSign_zero x')
  rw [h, hsplit'] at hsplit
  obtain ⟨-, hbody⟩ := Prod.mk.inj hsplit
  exact (List.cons.inj (List.cons.inj hbody).2).1.symm

theorem read_of_isHexNumeral (h : IsHexNumeral m) (r : CStr) :
    ∃ d rest, scanSigned decimal [] (m ++ r) = some (d, rest) ∧ ¬ BareOrUnit rest := by
  obtain ⟨x, sg, t, hx, hsg, heq⟩ : ∃ x sg t, (x = 'x' ∨ x = 'X') ∧ IsSign sg ∧
      m ++ r = sg ++ ('0' :: x :: t) := by
    obtain ⟨v, h | h⟩ := h
    · exact ⟨'x', (lead_of_denotes h r).imp fun sg => Exists.imp fun t => .intro (.inl rfl)⟩
    · exact ⟨'X', (lead_of_denotes h r).imp fun sg => Exists.imp fun t => .intro (.inr rfl)⟩
  have hvalid : Numeral.Parts.Valid decimal ⟨['0'], none, none⟩ := by
    constructor <;> simp [decimal]
  obtain ⟨d, hzero⟩ : ∃ d, IsNumeral (sg ++ ['0']) d := ⟨_, sg, _, hsg, hvalid, rfl, rfl⟩
  have hstops : Stops decimal (x :: t) := by
    rintro c ⟨⟩
    obtain rfl | rfl := hx <;> decide
  refine ⟨d, x :: t, ?_, ?_⟩
  · rw [heq, show sg ++ ('0' :: x :: t) = sg ++ ['0'] ++ (x :: t) by simp]
    exact Numeral.scanSigned_stops noSign_nil hzero hstops
  · rintro (hnil | ⟨se, hse, heq⟩)
    · cases hnil
    · obtain ⟨c, hc, hmem⟩ := suffix_head hse
      rw [heq] at hc
      obtain rfl := Option.some.inj hc
      obtain rfl | rfl := hx <;> exact absurd hmem (by decide)

/-! ### What `strtod` reads -/

/-- The longest hexadecimal numeral at the start, and what is behind it. -/
def LongestHex (u m r : CStr) : Prop :=
  IsHexNumeral m ∧ u = m ++ r ∧ ∀ m' r', IsHexNumeral m' → u = m' ++ r' → m'.length ≤ m.length

theorem longestHex_of_read {x : Char} (hx : x = 'x' ∨ x = 'X') {u r : CStr} {v : ℚ}
    (h : scanSigned hexadecimal ['0', x] u = some (v, r)) : ∃ m, LongestHex u m r := by
  obtain ⟨m, hm, hu, hlongest⟩ := Numeral.scanSigned_spec (noSign_zero x) h
  have hhex : IsHexNumeral m := by
    obtain rfl | rfl := hx
    · exact ⟨v, .inl hm⟩
    · exact ⟨v, .inr hm⟩
  refine ⟨m, hhex, hu, ?_⟩
  rintro m' r' ⟨v', hm'⟩ hu'
  obtain ⟨sg, t, hsg, hlead⟩ := lead_of_denotes hm r
  have hsame : ∀ x', Denotes hexadecimal ['0', x'] m' v' → x' = x := by
    intro x' hx'
    obtain ⟨sg', t', hsg', hlead'⟩ := lead_of_denotes hx' r'
    exact lead_inj hsg' hsg (by rw [← hlead', ← hlead, ← hu', ← hu])
  obtain hm' | hm' := hm'
  · obtain rfl := hsame _ hm'
    exact hlongest _ _ _ hm' hu'
  · obtain rfl := hsame _ hm'
    exact hlongest _ _ _ hm' hu'

/-- **What `strtod` reads**: a hexadecimal numeral, a numeral of the grammar, or a word. -/
theorem strtod_cases {u : CStr} (hu : ∀ c ∈ u.head?, isSpace c = false) :
    (∃ v m r, strtod u = some (.fin v, r) ∧ LongestHex u m r) ∨
    (∃ d r, strtod u = some (.fin d, r) ∧ scanSigned decimal [] u = some (d, r) ∧
      ∀ m r, IsHexNumeral m → u ≠ m ++ r) ∨
    (scanSigned decimal [] u = none ∧ strtod u = strtodWord u) := by
  have hdrop : u.dropWhile isSpace = u := Numeral.dropWhile_eq_self hu
  simp only [strtod, hdrop]
  cases hx : scanSigned hexadecimal ['0', 'x'] u with
  | some r =>
    obtain ⟨m, hm⟩ := longestHex_of_read (.inl rfl) hx
    exact .inl ⟨_, m, _, rfl, hm⟩
  | none =>
    cases hX : scanSigned hexadecimal ['0', 'X'] u with
    | some r =>
      obtain ⟨m, hm⟩ := longestHex_of_read (.inr rfl) hX
      exact .inl ⟨_, m, _, rfl, hm⟩
    | none =>
      cases hd : scanSigned decimal [] u with
      | some r =>
        refine .inr (.inl ⟨_, _, rfl, rfl, ?_⟩)
        rintro m r ⟨v, hm | hm⟩
        · exact Numeral.scanSigned_none (noSign_zero _) hx hm
        · exact Numeral.scanSigned_none (noSign_zero _) hX hm
      | none => exact .inr (.inr ⟨rfl, rfl⟩)

/-! ### Zero bytes -/

theorem cstr_append (h : NoNul m) (r : CStr) : cstr (m ++ r) = m ++ cstr r :=
  List.takeWhile_append_of_pos fun _ hc => decide_eq_true fun heq => h (heq ▸ hc)

theorem cstr_of_noNul {s : CStr} (h : NoNul s) : cstr s = s := by
  simpa [cstr] using cstr_append h []

theorem exists_cstr_append (s : CStr) : ∃ t, s = cstr s ++ t :=
  ⟨_, (List.takeWhile_append_dropWhile).symm⟩

theorem hasNumeral_cstr (s : CStr) : HasNumeral (cstr s) ↔ HasNumeral s := by
  constructor
  · rintro ⟨m, d, r, hm, hs⟩
    obtain ⟨t, ht⟩ := exists_cstr_append s
    exact ⟨m, d, r ++ t, hm, by rw [← List.append_assoc, ← hs, ← ht]⟩
  · rintro ⟨m, d, r, hm, rfl⟩
    exact ⟨m, d, cstr r, hm, cstr_append (noNul_of_isNumeral hm) r⟩

theorem read_cstr_eq_none (s : CStr) :
    scanSigned decimal [] (cstr s) = none ↔ scanSigned decimal [] s = none := by
  rw [← not_iff_not, ← ne_eq, ← ne_eq, ← hasNumeral_iff, ← hasNumeral_iff, hasNumeral_cstr]

theorem cstr_trim_head (text : CStr) : ∀ c ∈ (cstr (trim text)).head?, isSpace c = false := by
  intro c hc
  obtain ⟨t, ht⟩ := exists_cstr_append (trim text)
  obtain ⟨t', ht'⟩ := List.rdropWhile_prefix (p := isSpace) (l := text.dropWhile isSpace)
  obtain ⟨l, hl⟩ : ∃ l, cstr (trim text) = c :: l := List.head?_eq_some_iff.mp hc
  have hdrop : text.dropWhile isSpace = c :: (l ++ t ++ t') := by
    rw [← ht']
    change trim text ++ t' = _
    rw [ht, hl]
    simp
  have hhead := List.head?_dropWhile_not isSpace text
  rw [hdrop] at hhead
  exact hhead

/-! ### Texts that are read by the grammar -/

theorem classifyValue_of_read {text rest : CStr} {num : Double}
    (h : strtod (cstr (trim text)) = some (num, rest)) :
    classifyValue text = classifyRest num rest := by
  have hne : trim text ≠ [] := by
    intro hnil
    rw [hnil, show strtod (cstr []) = none by decide] at h
    cases h
  rw [classifyValue, h]
  exact if_neg hne

variable {text : CStr}

theorem classifyValue_of_none (h : strtod (cstr (trim text)) = none) : classifyValue text = {} := by
  rw [classifyValue, h]
  exact ite_self _

theorem form_ne_plain (num : Double) (rest : CStr) : (classifyRest num rest).form ≠ .plain := by
  unfold classifyRest
  split
  · exact nofun
  · split <;> exact nofun

theorem form_ne_unknown (num : Double) {rest : CStr} (h : BareOrUnit rest) :
    (classifyRest num rest).form ≠ .unknownSuffix := by
  obtain rfl | ⟨se, hse, rfl⟩ := h
  · exact nofun
  · rw [classifyRest_unit num hse]
    exact nofun

/-- A numeral has something else behind it. -/
def Unrecognized (text : CStr) : Prop :=
  ∃ d rest, scanSigned decimal [] (trim text) = some (d, rest) ∧ ¬ BareOrUnit rest

theorem Unrecognized.documented (h : Unrecognized text) (r : ClassifiedValue) :
    Documented text r ↔ r = .unknownSuffix := by
  obtain ⟨d, rest, hread, hrest⟩ := h
  rw [← documented_of_read hread, classifyRest_unknown _ hrest]
  cases r <;> simp [Classified.Is]

theorem unrecognized_of_hex {r : CStr} (hm : IsHexNumeral m)
    (h : cstr (trim text) = m ++ r) : Unrecognized text := by
  obtain ⟨t, ht⟩ := exists_cstr_append (trim text)
  obtain ⟨d, rest, hread, hrest⟩ := read_of_isHexNumeral hm (r ++ t)
  exact ⟨d, rest, by rw [ht, h, List.append_assoc, hread], hrest⟩

/-- The grammar reads beyond a zero byte. -/
theorem unrecognized_of_nul (hnul : ¬ NoNul (trim text))
    (h : HasNumeral (cstr (trim text))) : Unrecognized text := by
  rw [hasNumeral_cstr, hasNumeral_iff] at h
  obtain ⟨⟨d, rest⟩, hread⟩ := Option.ne_none_iff_exists'.mp h
  obtain ⟨m, hm, hs, -⟩ := Numeral.scanSigned_spec noSign_nil hread
  refine ⟨d, rest, hread, fun hrest => hnul ?_⟩
  have hrest : NoNul rest := by
    obtain rfl | ⟨se, hse, rfl⟩ := hrest
    · exact List.not_mem_nil
    · exact suffix_noNul hse
  rw [hs]
  exact fun hmem => (List.mem_append.mp hmem).elim (noNul_of_isNumeral hm) hrest

theorem classified_of_clean (h : Clean text) (r : ClassifiedValue) :
    (classifyValue text).Is r ↔ Documented text r := by
  have hunknown : ∀ {num : Double} {rest : CStr}, ¬ BareOrUnit rest → Unrecognized text →
      ((classifyRest num rest).Is r ↔ Documented text r) := by
    intro num rest hrest hun
    rw [hun.documented, classifyRest_unknown _ hrest]
    cases r <;> simp [Classified.Is]
  obtain ⟨v, m, rest, hread, hm, hs, hlongest⟩ | ⟨d, rest, hread, hscan, hno⟩ | ⟨hscan, hword⟩ :=
    strtod_cases (cstr_trim_head text)
  · rw [classifyValue_of_read hread]
    exact hunknown (h.hex m rest hm hs hlongest) (unrecognized_of_hex hm hs)
  · rw [classifyValue_of_read hread]
    by_cases hnul : NoNul (trim text)
    · rw [cstr_of_noNul hnul] at hscan
      exact documented_of_read hscan r
    · obtain ⟨m, hm, hs, -⟩ := Numeral.scanSigned_spec noSign_nil hscan
      exact hunknown (h.nul.resolve_left hnul m d rest hm hs)
        (unrecognized_of_nul hnul ⟨m, d, rest, hm, hs⟩)
  · have hnone : strtodWord (cstr (trim text)) = none := by
      by_contra hne
      obtain ⟨sg, w, t, hsg, hw, hs⟩ := (strtodWord_ne_none _).mp hne
      exact h.word sg w t hsg hw hs
    rw [classifyValue_of_none (hword.trans hnone)]
    exact documented_of_none ((read_cstr_eq_none _).mp hscan) r

theorem clean_of_classified
    (h : ∀ r, (classifyValue text).Is r ↔ Documented text r) : Clean text := by
  -- nothing that has no numeral with a unit is classified as if it had
  have hform : Unrecognized text → ∀ {num rest}, strtod (cstr (trim text)) = some (num, rest) →
      ¬ BareOrUnit rest := by
    intro hun num rest hread hrest
    have hunknown := (h .unknownSuffix).mpr ((hun.documented _).mpr rfl)
    rw [classifyValue_of_read hread] at hunknown
    exact form_ne_unknown num hrest hunknown
  have hcases := strtod_cases (cstr_trim_head text)
  constructor
  · intro sg w t hsg hw hs
    have hscan := read_of_word hsg hw t
    rw [← hs] at hscan
    have hplain := (h .plain).mpr <| by
      rw [← documented_of_none ((read_cstr_eq_none _).mp hscan)]
      rfl
    have hread : ∃ r, strtod (cstr (trim text)) = some r := by
      obtain ⟨v, m, r, hread, -⟩ | ⟨d, r, hread, -⟩ | ⟨-, hword⟩ := hcases
      · exact ⟨_, hread⟩
      · exact ⟨_, hread⟩
      · rw [hword]
        exact Option.ne_none_iff_exists'.mp ((strtodWord_ne_none _).mpr ⟨sg, w, t, hsg, hw, hs⟩)
    obtain ⟨r, hread⟩ := hread
    rw [classifyValue_of_read hread] at hplain
    exact form_ne_plain _ _ hplain
  · intro m r hm hs hlongest hr
    obtain ⟨d, t, hscan, -⟩ := read_of_isHexNumeral hm r
    rw [← hs] at hscan
    obtain ⟨v, m', r', hread, hm', hs', hlongest'⟩ | ⟨-, -, -, -, hno⟩ | ⟨hnone, -⟩ := hcases
    · have hlen : m.length = m'.length :=
        le_antisymm (hlongest' m r hm hs) (hlongest m' r' hm' hs')
      obtain ⟨rfl, rfl⟩ := List.append_inj (hs.symm.trans hs') hlen
      exact hform (unrecognized_of_hex hm hs) hread hr
    · exact hno m r hm hs
    · exact absurd (hscan.symm.trans hnone) (by simp)
  · by_cases hnul : NoNul (trim text)
    · exact .inl hnul
    · refine .inr fun m d r hm hs hr => ?_
      have hscan := read_of_isNumeral hm hr
      rw [← hs] at hscan
      obtain ⟨v, m', r', -, hm', hs', -⟩ | ⟨d', r', hread, hscan', -⟩ | ⟨hnone, -⟩ := hcases
      · obtain ⟨d', t, hscan', ht⟩ := read_of_isHexNumeral hm' r'
        rw [← hs', hscan] at hscan'
        obtain ⟨-, rfl⟩ := Prod.mk.inj (Option.some.inj hscan')
        exact ht hr
      · obtain ⟨-, rfl⟩ := Prod.mk.inj (Option.some.inj (hscan.symm.trans hscan'))
        exact hform (unrecognized_of_nul hnul ⟨m, d, r, hm, hs⟩) hread hr
      · exact absurd (hscan.symm.trans hnone) (by simp)

/-! ### Parameters -/

theorem exists_documented (text : CStr) : ∃ r, Documented text r := by
  cases h : scanSigned decimal [] (trim text) with
  | none => exact ⟨.plain, (documented_of_none h _).mp rfl⟩
  | some read =>
    obtain ⟨d, rest⟩ := read
    by_cases hrest : BareOrUnit rest
    · obtain rfl | ⟨se, hse, rfl⟩ := hrest
      · exact ⟨.bareNumber d, (documented_of_read h _).mp ⟨rfl, rfl⟩⟩
      · refine ⟨.withUnit se.kind (d * se.factor), (documented_of_read h _).mp ?_⟩
        rw [classifyRest_unit _ hse]
        exact ⟨rfl, rfl, rfl⟩
    · exact ⟨_, (Unrecognized.documented ⟨d, rest, h, hrest⟩ _).mpr rfl⟩

theorem resolvedAs_of_classified
    (h : ∀ r, (classifyValue text).Is r ↔ Documented text r) (formatNumber : Double → CStr)
    (units : List ParamUnit) (key : CStr) :
    ResolvedAs formatNumber (findParamUnit units key) text
      (resolveParamValue formatNumber units key text) := by
  obtain ⟨r, hr⟩ := exists_documented text
  have hunique : ∀ r', Documented text r' → r' = r := fun r' hr' =>
    ((h r').mpr hr').unique ((h r).mpr hr)
  let lib : Library := ⟨fun _ => .error [], false, fun _ => r, fun q => formatNumber (.fin q)⟩
  have heq : resolveParamValue formatNumber units key text =
      Config.resolveParamValue lib units key text :=
    resolveParamValue_eq ((h r).mpr hr) (fun _ => rfl) units key
  rw [heq, Config.resolveParamValue]
  constructor
  · rintro hunit kind c hc
    obtain rfl := hunique _ hc
    rw [hunit]
    exact ⟨_, rfl⟩
  · rintro pu hunit kind c hc hne
    obtain rfl := hunique _ hc
    rw [hunit]
    exact ⟨_, if_pos hne⟩
  · rintro pu hunit kind c hc hneg
    obtain rfl := hunique _ hc
    rw [hunit]
    by_cases hkind : kind = pu.kind
    · exact ⟨_, (if_neg (not_not.mpr hkind)).trans (if_pos hneg)⟩
    · exact ⟨_, if_pos hkind⟩
  · rintro pu hunit hunknown
    obtain rfl := hunique _ hunknown
    rw [hunit]
    exact ⟨_, rfl⟩
  · rintro pu hunit c hc hnonneg
    obtain rfl := hunique _ hc
    rw [hunit]
    exact (if_neg (not_not.mpr rfl)).trans (if_neg (not_lt.mpr hnonneg))
  · intro hno hunit
    cases hu : findParamUnit units key with
    | none =>
      cases r with
      | withUnit kind c => exact absurd hr (hno kind c)
      | plain | bareNumber | unknownSuffix => rfl
    | some pu =>
      cases r with
      | withUnit kind c => exact absurd hr (hno kind c)
      | plain | bareNumber => rfl
      | unknownSuffix =>
        rw [hu] at hunit
        exact absurd hr (hunit.resolve_left (by simp))

/-- **A text is what the grammar says** just if it is clean. -/
theorem asDocumented_iff_clean (text : CStr) : AsDocumented text ↔ Clean text :=
  ⟨fun h => clean_of_classified h.1, fun h =>
    ⟨classified_of_clean h, resolvedAs_of_classified (classified_of_clean h)⟩⟩

/-- `0x10` is a zero with an unknown unit by the grammar, and 16 to the code. -/
theorem hexadecimal_is_bare : ¬ AsDocumented ['0', 'x', '1', '0'] := by
  rintro ⟨h, -⟩
  have hrest : ¬ BareOrUnit ['x', '1', '0'] := by
    rintro (hnil | ⟨se, hse, heq⟩)
    · cases hnil
    · have hno : ∀ se ∈ suffixes, se.suffix ≠ ['x', '1', '0'] := by decide
      exact hno se hse heq
  have hun : Unrecognized ['0', 'x', '1', '0'] := ⟨0, _, by decide +kernel, hrest⟩
  have hunknown : (classifyValue ['0', 'x', '1', '0']).form = .unknownSuffix :=
    (h .unknownSuffix).mpr ((hun.documented _).mpr rfl)
  exact absurd hunknown (by decide +kernel)

end Units

end CodesSim.Config
