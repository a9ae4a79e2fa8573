import CodesSim.Config.Units

/-!
# The grammar of values with a unit

What a text is by the documented grammar: a base-10 numeral, perhaps with a unit right behind it
(`Documented`).  The code says so of a text just if it is `Clean`: no infinity and no `nan` at its
start, no hexadecimal numeral that is all of it but for a unit, and no zero byte behind a numeral
with or without a unit.
-/

namespace CodesSim.Config

namespace Units

open Numeral (Stops IsSign NoSign Denotes scanSigned)

/-! ### The grammar -/

/-- A base-10 numeral, and the number that it denotes. -/
abbrev IsNumeral : CStr → ℚ → Prop := Denotes decimal []

/-- A hexadecimal numeral. -/
def IsHexNumeral (m : CStr) : Prop :=
  ∃ v, Denotes hexadecimal ['0', 'x'] m v ∨ Denotes hexadecimal ['0', 'X'] m v

/-- A numeral with a unit. -/
def HasUnit (s : CStr) (kind : Quantity) (c : ℚ) : Prop :=
  ∃ m d, ∃ se ∈ suffixes, IsNumeral m d ∧ s = m ++ se.suffix ∧ kind = se.kind ∧ c = d * se.factor

/-- A numeral with anything behind it. -/
def HasNumeral (s : CStr) : Prop := ∃ m d r, IsNumeral m d ∧ s = m ++ r

/-- What a text is, but for the white space around it. -/
def Documented (text : CStr) : ClassifiedValue → Prop
  | .withUnit kind c => HasUnit (trim text) kind c
  | .bareNumber d => IsNumeral (trim text) d
  | .unknownSuffix => HasNumeral (trim text) ∧ (∀ kind c, ¬ HasUnit (trim text) kind c) ∧
      ∀ d, ¬ IsNumeral (trim text) d
  | .plain => ¬ HasNumeral (trim text)

/-- What the value of a parameter is: an error, a converted number or the text as it is. -/
structure ResolvedAs (formatNumber : Double → CStr) (unit : Option ParamUnit) (raw : CStr)
    (result : Except ConfigError CStr) : Prop where
  noUnit : unit = none → ∀ kind c, Documented raw (.withUnit kind c) → ∃ e, result = .error e
  wrongQuantity : ∀ pu, unit = some pu → ∀ kind c, Documented raw (.withUnit kind c) →
    kind ≠ pu.kind → ∃ e, result = .error e
  negative : ∀ pu, unit = some pu → ∀ kind c, Documented raw (.withUnit kind c) → c < 0 →
    ∃ e, result = .error e
  unknown : ∀ pu, unit = some pu → Documented raw .unknownSuffix → ∃ e, result = .error e
  accepted : ∀ pu, unit = some pu → ∀ c, Documented raw (.withUnit pu.kind c) → 0 ≤ c →
    result = .ok (formatNumber (.fin (c / pu.internalScale)))
  unchanged : (∀ kind c, ¬ Documented raw (.withUnit kind c)) →
    (unit = none ∨ ¬ Documented raw .unknownSuffix) → result = .ok raw

/-- A text is classified by the grammar, and resolved by what it is. -/
def AsDocumented (text : CStr) : Prop :=
  (∀ r, (classifyValue text).Is r ↔ Documented text r) ∧
    ∀ formatNumber units key, ResolvedAs formatNumber (findParamUnit units key) text
      (resolveParamValue formatNumber units key text)

/-! ### The condition -/

/-- Nothing, or a unit. -/
def BareOrUnit (r : CStr) : Prop := r = [] ∨ ∃ se ∈ suffixes, se.suffix = r

/-- What `strtod` takes beyond the grammar does not occur where it counts. -/
structure Clean (text : CStr) : Prop where
  /-- No `inf` and no `nan` at the start, in whatever case. -/
  word : ∀ sg w r, IsSign sg →
    w.map Char.toLower = ['i', 'n', 'f'] ∨ w.map Char.toLower = ['n', 'a', 'n'] →
    cstr (trim text) ≠ sg ++ (w ++ r)
  /-- The longest hexadecimal numeral at the start has something behind it that is no unit. -/
  hex : ∀ m r, IsHexNumeral m → cstr (trim text) = m ++ r →
    (∀ m' r', IsHexNumeral m' → cstr (trim text) = m' ++ r' → m'.length ≤ m.length) →
    ¬ BareOrUnit r
  /-- No numeral ends at a zero byte, and no unit behind one. -/
  nul : NoNul (trim text) ∨
    ∀ m d r, IsNumeral m d → cstr (trim text) = m ++ r → ¬ BareOrUnit r

/-! ### Units -/

variable {se : SuffixEntry}

theorem suffix_inj {se' : SuffixEntry} (h : se ∈ suffixes) (h' : se' ∈ suffixes)
    (heq : se.suffix = se'.suffix) : se = se' := by
  have hnodup : (suffixes.map SuffixEntry.suffix).Nodup := by decide
  exact List.inj_on_of_nodup_map hnodup h h' heq

theorem suffix_head (h : se ∈ suffixes) :
    ∃ c ∈ se.suffix.head?, c ∈ ['n', 'u', 'm', 's', 'B', 'K', 'M', 'G', 'b'] := by
  have hall : (suffixes.all fun se => se.suffix.head?.any fun c =>
      ['n', 'u', 'm', 's', 'B', 'K', 'M', 'G', 'b'].contains c) = true := by
    decide
  obtain ⟨c, hc, hmem⟩ := (Option.any_eq_true _ _).1 (List.all_eq_true.1 hall se h)
  exact ⟨c, hc, List.contains_iff_mem.1 hmem⟩

theorem suffix_noNul (h : se ∈ suffixes) : NoNul se.suffix := by
  have hall : ∀ se ∈ suffixes, NoNul se.suffix := by decide
  exact hall se h

theorem stops_of_bareOrUnit {r : CStr} (h : BareOrUnit r) : Stops decimal r := by
  obtain rfl | ⟨se, hse, rfl⟩ := h
  · exact fun c hc => nomatch hc
  · obtain ⟨c, hc, hmem⟩ := suffix_head hse
    intro d hd
    obtain rfl := Option.mem_unique hc hd
    revert hmem
    have hall : (['n', 'u', 'm', 's', 'B', 'K', 'M', 'G', 'b'].all fun c =>
      decimal.digit c = false ∧
        c.isDigit = false ∧ c ≠ '.' ∧ decimal.mark c = false) = true := by
      decide
    exact fun hmem => of_decide_eq_true (List.all_eq_true.1 hall c hmem)

theorem classifyRest_nil (num : Double) :
    classifyRest num [] = { form := .bareNumber, number := num } :=
  if_pos rfl

theorem classifyRest_unit (num : Double) (h : se ∈ suffixes) : classifyRest num se.suffix =
      { form := .withUnit, kind := se.kind, canonical := num.mul se.factor, number := num } := by
  have hne : se.suffix ≠ [] := by
    obtain ⟨c, hc, -⟩ := suffix_head h
    exact fun hnil => by simp [hnil] at hc
  have hfind : suffixes.find? (fun se' => se'.suffix == se.suffix) = some se := by
    cases hf : suffixes.find? fun se' => se'.suffix == se.suffix with
    | none => exact absurd (List.find?_eq_none.mp hf se h) (by simp)
    | some se' =>
      have heq : se'.suffix = se.suffix := by simpa using List.find?_some hf
      rw [suffix_inj (List.mem_of_find?_eq_some hf) h heq]
  rw [classifyRest, if_neg hne, hfind]

theorem classifyRest_unknown (num : Double) {rest : CStr} (h : ¬ BareOrUnit rest) :
    classifyRest num rest = { form := .unknownSuffix, number := num } := by
  have hfind : suffixes.find? (fun se => se.suffix == rest) = none := by
    rw [List.find?_eq_none]
    exact fun se hse heq => h (.inr ⟨se, hse, by simpa using heq⟩)
  rw [classifyRest, if_neg fun hnil => h (.inl hnil), hfind]

/-! ### Numerals -/

theorem noSign_nil : NoSign [] := fun _ hc => nomatch hc

theorem noSign_zero (x : Char) : NoSign ['0', x] := by
  rintro c ⟨⟩
  decide

theorem noNul_of_isNumeral {m : CStr} {d : ℚ} (h : IsNumeral m d) : NoNul m := by
  obtain ⟨sg, p, hsg, hp, rfl, -⟩ := h
  intro hmem
  rw [List.nil_append, List.mem_append] at hmem
  obtain hmem | hmem := hmem
  · obtain rfl | rfl | rfl := hsg <;> simp at hmem
  · exact absurd (hp.mem hmem) (by decide)

theorem read_of_isNumeral {m r : CStr} {d : ℚ} (h : IsNumeral m d) (hr : BareOrUnit r) :
    scanSigned decimal [] (m ++ r) = some (d, r) :=
  Numeral.scanSigned_stops noSign_nil h (stops_of_bareOrUnit hr)

theorem hasNumeral_iff (s : CStr) : HasNumeral s ↔ scanSigned decimal [] s ≠ none := by
  constructor
  · rintro ⟨m, d, r, hm, rfl⟩ hnone
    exact Numeral.scanSigned_none noSign_nil hnone hm rfl
  · intro hne
    obtain ⟨⟨d, r⟩, hread⟩ := Option.ne_none_iff_exists'.mp hne
    obtain ⟨m, hm, hs, -⟩ := Numeral.scanSigned_spec noSign_nil hread
    exact ⟨m, d, r, hm, hs⟩

theorem documented_of_none {text : CStr} (h : scanSigned decimal [] (trim text) = none)
    (r : ClassifiedValue) : ({} : Classified).Is r ↔ Documented text r := by
  have hno : ¬ HasNumeral (trim text) := by simp [hasNumeral_iff, h]
  cases r with
  | plain => exact iff_of_true rfl hno
  | bareNumber d =>
    exact iff_of_false (fun h => nomatch h.1) fun hd => hno ⟨_, d, [], hd, (List.append_nil _).symm⟩
  | withUnit kind c =>
    refine iff_of_false (fun h => nomatch h.1) ?_
    rintro ⟨m, d, se, -, hm, hs, -⟩
    exact hno ⟨m, d, _, hm, hs⟩
  | unknownSuffix => exact iff_of_false (fun h => nomatch h) fun h => hno h.1

theorem documented_of_read {text rest : CStr} {d : ℚ}
    (h : scanSigned decimal [] (trim text) = some (d, rest)) (r : ClassifiedValue) :
    (classifyRest (.fin d) rest).Is r ↔ Documented text r := by
  have hnumeral : HasNumeral (trim text) := by simp [hasNumeral_iff, h]
  obtain ⟨m, hm, hs, -⟩ := Numeral.scanSigned_spec noSign_nil h
  have hbare : ∀ d', IsNumeral (trim text) d' ↔ rest = [] ∧ d = d' := by
    refine fun d' => ⟨fun hd' => ?_, ?_⟩
    · have hread := read_of_isNumeral hd' (.inl rfl)
      rw [List.append_nil, h] at hread
      exact ⟨(Prod.mk.inj (Option.some.inj hread)).2, (Prod.mk.inj (Option.some.inj hread)).1⟩
    · rintro ⟨rfl, rfl⟩
      rwa [hs, List.append_nil]
  have hunit : ∀ kind c, HasUnit (trim text) kind c ↔
      ∃ se ∈ suffixes, rest = se.suffix ∧ kind = se.kind ∧ c = d * se.factor := by
    refine fun kind c => ⟨?_, ?_⟩
    · rintro ⟨m', d', se, hse, hm', hs', hkind, hc⟩
      have hread := read_of_isNumeral hm' (.inr ⟨se, hse, rfl⟩)
      rw [← hs', h] at hread
      obtain ⟨rfl, rfl⟩ := Prod.mk.inj (Option.some.inj hread)
      exact ⟨se, hse, rfl, hkind, hc⟩
    · rintro ⟨se, hse, rfl, hkind, hc⟩
      exact ⟨m, d, se, hse, hm, hs, hkind, hc⟩
  by_cases hrest : BareOrUnit rest
  · obtain rfl | ⟨se, hse, rfl⟩ := hrest
    · have hne : ∀ se ∈ suffixes, [] ≠ se.suffix := by decide
      have hno : ∀ kind c, ¬ HasUnit (trim text) kind c := by
        rintro kind c hc
        obtain ⟨se, hse, hnil, -⟩ := (hunit kind c).mp hc
        exact hne se hse hnil
      rw [classifyRest_nil]
      cases r <;> simp [Classified.Is, Documented, hbare, hno, hnumeral]
    · have hne : se.suffix ≠ [] := by
        intro hnil
        obtain ⟨c, hc, -⟩ := suffix_head hse
        simp [hnil] at hc
      have hself : ∀ kind c, (∃ se' ∈ suffixes, se.suffix = se'.suffix ∧ kind = se'.kind ∧
          c = d * se'.factor) ↔ se.kind = kind ∧ d * se.factor = c := by
        refine fun kind c => ⟨?_, ?_⟩
        · rintro ⟨se', hse', heq, rfl, rfl⟩
          rw [suffix_inj hse hse' heq]
          exact ⟨rfl, rfl⟩
        · rintro ⟨rfl, rfl⟩
          exact ⟨se, hse, rfl, rfl, rfl⟩
      rw [classifyRest_unit _ hse]
      cases r <;> simp [Classified.Is, Documented, Double.mul, hbare, hunit, hself, hnumeral, hne]
  · have hne : rest ≠ [] := fun h => hrest (.inl h)
    have hno : ∀ kind c, ¬ HasUnit (trim text) kind c := by
      rintro kind c hc
      obtain ⟨se, hse, heq, -⟩ := (hunit kind c).mp hc
      exact hrest (.inr ⟨se, hse, heq.symm⟩)
    rw [classifyRest_unknown _ hrest]
    cases r <;> simp [Classified.Is, Documented, hbare, hno, hnumeral, hne]

end Units

end CodesSim.Config
