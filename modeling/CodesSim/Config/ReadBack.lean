import CodesSim.Config.Writer

/-!
# Reading back what is written

Names, values and punctuation as the writer puts them, read by the lexer and the parser.  Values are
read back if they hold none of the characters the literals treat specially (`Clean`).
-/

namespace CodesSim.Config

/-! ### Tokens -/

/-- A value without a quote, a backslash or a newline. -/
def Clean (value : CStr) : Prop := ∀ c ∈ value, isPlain c = true

instance (value : CStr) : Decidable (Clean value) :=
  decidable_of_iff (value.all isPlain = true) List.all_eq_true

theorem yylex_blanks (text : CStr) : yylex (text.dropWhile isBlank) = yylex text := by
  cases text with
  | nil => rfl
  | cons c text =>
    by_cases hblank : isBlank c = true
    · rw [List.dropWhile_cons_of_pos hblank]
      have hc : c = ' ' ∨ c = '\t' := by simpa [isBlank] using hblank
      conv_rhs => rw [yylex]
      rcases hc with rfl | rfl
      · rfl
      · rfl
    · rw [List.dropWhile_cons_of_neg hblank]

theorem yylex_blank (text : CStr) : yylex (' ' :: text) = yylex text := by
  rw [← yylex_blanks (' ' :: text), List.dropWhile_cons_of_pos (by decide), yylex_blanks]

theorem yylex_newline (text : CStr) : yylex ('\n' :: text) = yylex text := by
  rw [yylex]
  rfl

variable {c : Char}

theorem yylex_char {t : Token} (h : charToken c = some t) (text : CStr) :
    yylex (c :: text) = .token t text := by
  have hc : c = '{' ∨ c = '}' ∨ c = ';' ∨ c = '=' ∨ c = ',' ∨ c = ')' ∨ c = '(' := by
    unfold charToken at h
    split_ifs at h <;> simp_all
  rw [yylex]
  rcases hc with rfl | rfl | rfl | rfl | rfl | rfl | rfl <;> cases h <;> rfl

theorem yylex_quote (text : CStr) : yylex ('"' :: text) = lexString [] text := by
  rw [yylex, if_neg (by simp), if_neg (by simp), if_pos rfl]

theorem yylex_alpha (h : c.isAlpha = true) (text : CStr) : yylex (c :: text) =
    if (scanId (c :: text)).1.length < stringBufSize then
      .token (.identifier (scanId (c :: text)).1) (scanId (c :: text)).2
    else .error .idTooLong := by
  have hne (d : Char) (hd : d.isAlpha = false) : c ≠ d := by
    rintro rfl
    rw [hd] at h
    cases h
  rw [yylex, if_neg fun h => hne '/' rfl h.1,
    if_neg (by rintro (h | h); exacts [hne '/' rfl h.1, hne '#' rfl h]),
    if_neg (hne '"' rfl), if_pos h]

theorem yylex_name {name : CStr} (h : IsId name) (text : CStr) :
    yylex (name ++ ' ' :: text) = .token (.identifier name) (' ' :: text) := by
  have hscan := scanId_name h text
  obtain ⟨c, rest, rfl, halpha⟩ := h.alpha
  rw [List.cons_append] at hscan ⊢
  rw [yylex_alpha halpha, hscan, if_pos h.short]

variable {value : CStr}

/-- **A clean value is read back.** -/
theorem lexString_clean (hclean : Clean value) (hvalue : IsLiteral value)
    (text : CStr) : lexString [] (value ++ '"' :: text) = .token (.literalString value) text := by
  have hnul : cstr value = value := List.takeWhile_eq_self_iff.2 fun c hc =>
    decide_eq_true fun h => hvalue.noNul (h ▸ hc)
  have hend : ∀ buf : CStr, buf.length < stringBufSize → lexString buf ('"' :: text) =
      .token (.literalString (cstr buf)) text := fun buf hlt => by
    rw [lexString, if_pos rfl, if_pos hlt]
  cases value with
  | nil => exact hend [] (by decide)
  | cons c value =>
    have hc : isPlain c = true := hclean c List.mem_cons_self
    have hrest : ∀ c ∈ value, isPlain c = true := fun c hc => hclean c (List.mem_cons_of_mem _ hc)
    have hplain : (c ≠ '\\' ∧ c ≠ '\n') ∧ c ≠ '"' := by simpa [isPlain] using hc
    rw [List.cons_append, lexString, if_neg hplain.2, if_neg hplain.1.2, if_neg hplain.1.1,
      List.takeWhile_append_of_pos hrest, List.dropWhile_append_of_pos hrest,
      List.takeWhile_cons_of_neg (by decide), List.dropWhile_cons_of_neg (by decide),
      List.append_nil, hnul, if_pos (by simpa using hvalue.short.le), List.nil_append,
      hend _ hvalue.short, hnul]

theorem yylex_literal (hclean : Clean value) (hvalue : IsLiteral value)
    (text : CStr) : yylex ('"' :: (value ++ '"' :: text)) = .token (.literalString value) text := by
  rw [yylex_quote]
  exact lexString_clean hclean hvalue text

/-! ### Entries -/

section Entries

variable {outer : List (CStr × List Entry)} {es : List Entry} {name : CStr}

/-- The parser is between two entries. -/
def Expect.Between (w : Expect) : Prop := w = .entry ∨ w = .closed

/-- Only the next token counts. -/
theorem yyparse_congr {p : Parse} {text text' : CStr} (h : yylex text = yylex text') :
    yyparse p text = yyparse p text' := by
  cases hlex : yylex text' with
  | eof => rw [yyparse_eof hlex, yyparse_eof (h.trans hlex)]
  | error e => rw [yyparse_error hlex, yyparse_error (h.trans hlex)]
  | token t rest => rw [yyparse_token hlex, yyparse_token (h.trans hlex)]

theorem yyparse_blank (p : Parse) (text : CStr) : yyparse p (' ' :: text) = yyparse p text :=
  yyparse_congr (yylex_blank text)

theorem yyparse_newline (p : Parse) (text : CStr) : yyparse p ('\n' :: text) = yyparse p text :=
  yyparse_congr (yylex_newline text)

theorem yyparse_indent (p : Parse) (indent : ℕ) (text : CStr) :
    yyparse p (showIndent indent ++ text) = yyparse p text := by
  induction indent with
  | zero => rfl
  | succ indent ih => exact (yyparse_blank p _).trans ih

theorem yyparse_char {p p' : Parse} {t : Token} (h : charToken c = some t)
    (hstep : p.step t = .ok p') (text : CStr) : yyparse p (c :: text) = yyparse p' text :=
  yyparse_step (yylex_char h text) hstep

variable {w : Expect}

theorem yyparse_name (hname : IsId name) (hw : w.Between) (text : CStr) :
    yyparse ⟨outer, es, w⟩ (name ++ ' ' :: text) = yyparse ⟨outer, es, .afterName name⟩ text := by
  have hstep : Parse.step ⟨outer, es, w⟩ (.identifier name) = .ok ⟨outer, es, .afterName name⟩ := by
    rcases hw with rfl | rfl <;> rfl
  rw [yyparse_step (yylex_name hname text) hstep, yyparse_blank]

theorem yyparse_equal (hname : IsId name) (hw : w.Between) (text : CStr) :
    yyparse ⟨outer, es, w⟩ (name ++ " = " ++ text) =
      yyparse ⟨outer, es, .value name⟩ text := by
  have htext : name ++ " = " ++ text = name ++ ' ' :: '=' :: ' ' :: text :=
    List.append_assoc _ _ _
  rw [htext, yyparse_name hname hw, yyparse_char (t := .equalToken) rfl rfl, yyparse_blank]

theorem yyparse_endKey (values : List CStr) (text : CStr) :
    yyparse ⟨outer, es, .endKey name values⟩ (";\n" ++ text) =
      yyparse ⟨outer, es ++ [.key name values], .entry⟩ text :=
  (yyparse_char (t := .semicolumn) rfl rfl _).trans (yyparse_newline _ text)

theorem yyparse_key (hname : IsId name) (hvalue : IsLiteral value)
    (hclean : Clean value) (hw : w.Between) (text : CStr) :
    yyparse ⟨outer, es, w⟩ (name ++ " = \"" ++ value ++ "\";\n" ++ text) =
      yyparse ⟨outer, es ++ [.key name [value]], .entry⟩ text := by
  have htext : name ++ " = \"" ++ value ++ "\";\n" ++ text =
      name ++ " = " ++ '"' :: (value ++ '"' :: (";\n" ++ text)) := by
    simp
  have hstep : Parse.step ⟨outer, es, .value name⟩ (.literalString value) =
      .ok ⟨outer, es, .endKey name [value]⟩ := rfl
  rw [htext, yyparse_equal hname hw, yyparse_step (yylex_literal hclean hvalue _) hstep,
    yyparse_endKey]

/-- The parser is before a value of a list. -/
def Expect.BeforeValue (E : Expect) (name : CStr) (values : List CStr) : Prop :=
  (E = .firstValue name ∧ values = []) ∨ E = .nextValue name values

theorem Expect.BeforeValue.step {E : Expect} {values : List CStr} (hE : E.BeforeValue name values)
    (value : CStr) : Parse.step ⟨outer, es, E⟩ (.literalString value) =
      Parse.addValue ⟨outer, es, E⟩ name values value := by
  rcases hE with ⟨rfl, rfl⟩ | rfl <;> rfl

theorem yyparse_values {vs : List CStr} (hne : vs ≠ []) (hvalues : ∀ v ∈ vs, IsLiteral v)
    (hclean : ∀ v ∈ vs, Clean v) {E : Expect} {values : List CStr} (hE : E.BeforeValue name values)
    (hcount : (values ++ vs).length < maxValues) (text : CStr) :
    yyparse ⟨outer, es, E⟩ (dumpValues vs ++ text) =
      yyparse ⟨outer, es, .afterValue name (values ++ vs)⟩ text := by
  induction vs generalizing E values with
  | nil => exact absurd rfl hne
  | cons v vs ih =>
    rw [List.length_append, List.length_cons] at hcount
    have hstep : Parse.step ⟨outer, es, E⟩ (.literalString v) =
        .ok ⟨outer, es, .afterValue name (values ++ [v])⟩ := by
      rw [hE.step, Parse.addValue, if_pos (by omega)]
    have hlex := yylex_literal (hclean v List.mem_cons_self) (hvalues v List.mem_cons_self)
    cases vs with
    | nil =>
      have htext : dumpValues [v] ++ text = '"' :: (v ++ '"' :: ' ' :: text) := by
        simp [dumpValues]
      rw [htext, yyparse_step (hlex _) hstep, yyparse_blank]
    | cons v' vs =>
      have htext : dumpValues (v :: v' :: vs) ++ text =
          '"' :: (v ++ '"' :: ' ' :: ',' :: ' ' :: (dumpValues (v' :: vs) ++ text)) := by
        simp [dumpValues]
      have hnext : Parse.step ⟨outer, es, .afterValue name (values ++ [v])⟩ .komma =
          .ok ⟨outer, es, .nextValue name (values ++ [v])⟩ := rfl
      rw [htext, yyparse_step (hlex _) hstep, yyparse_blank, yyparse_char rfl hnext, yyparse_blank,
        ih (List.cons_ne_nil _ _) (fun v hv => hvalues v (List.mem_cons_of_mem _ hv))
          (fun v hv => hclean v (List.mem_cons_of_mem _ hv)) (.inr rfl)
          (by simp at hcount ⊢; omega),
        List.append_assoc, List.singleton_append]

/-- Behind the opening parenthesis. -/
theorem yyparse_lopen (hname : IsId name) (hw : w.Between) (text : CStr) :
    yyparse ⟨outer, es, w⟩ (name ++ " = (" ++ text) =
      yyparse ⟨outer, es, .firstValue name⟩ text := by
  have htext : name ++ " = (" ++ text = name ++ " = " ++ '(' :: text := by simp
  rw [htext, yyparse_equal hname hw, yyparse_char (t := .lopen) rfl rfl]

theorem yyparse_multikey {vs : List CStr} (hname : IsId name) (hvalues : ∀ v ∈ vs, IsLiteral v)
    (hclean : ∀ v ∈ vs, Clean v) (hcount : vs.length < maxValues) (hw : w.Between)
    (text : CStr) :
    yyparse ⟨outer, es, w⟩ (name ++ " = (" ++ dumpValues vs ++ ");\n" ++ text) =
      yyparse ⟨outer, es ++ [.key name vs], .entry⟩ text := by
  have htext : name ++ " = (" ++ dumpValues vs ++ ");\n" ++ text =
      name ++ " = (" ++ (dumpValues vs ++ ')' :: (";\n" ++ text)) := by
    simp
  rw [htext, yyparse_lopen hname hw]
  cases vs with
  | nil => exact (yyparse_char (t := .lclose) rfl rfl _).trans (yyparse_endKey [] text)
  | cons v vs =>
    rw [yyparse_values (List.cons_ne_nil v vs) hvalues hclean (.inl ⟨rfl, rfl⟩) hcount,
      List.nil_append, yyparse_char (t := .lclose) rfl rfl, yyparse_endKey]

theorem yyparse_open (hname : IsId name) (hdepth : outer.length + 1 < sectionStackSize)
    (hw : w.Between) (text : CStr) :
    yyparse ⟨outer, es, w⟩ (name ++ " \x7b \n" ++ text) =
      yyparse ⟨(name, es) :: outer, [], .entry⟩ text := by
  have htext : name ++ " \x7b \n" ++ text = name ++ ' ' :: '{' :: ' ' :: '\n' :: text :=
    List.append_assoc _ _ _
  have hstep : Parse.step ⟨outer, es, .afterName name⟩ .openSection =
      .ok ⟨(name, es) :: outer, [], .entry⟩ := by
    show Parse.openSection ⟨outer, es, .afterName name⟩ name = _
    rw [Parse.openSection, if_neg (by show ¬_ ≤ outer.length; omega),
      if_neg (by show ¬_ ≤ outer.length + 1; omega)]
  rw [htext, yyparse_name hname hw, yyparse_char rfl hstep, yyparse_blank, yyparse_newline]

/-- The end of a section. -/
theorem yyparse_close {before : List Entry} (hw : w.Between) (indent : ℕ) (text : CStr) :
    yyparse ⟨(name, before) :: outer, es, w⟩ (showIndent indent ++ ("\x7d\n" ++ text)) =
      yyparse ⟨outer, before ++ [.subsection name es], .closed⟩ text := by
  have hstep : Parse.step ⟨(name, before) :: outer, es, w⟩ .closeSection =
      .ok ⟨outer, before ++ [.subsection name es], .closed⟩ := by
    rcases hw with rfl | rfl <;> rfl
  rw [yyparse_indent]
  exact (yyparse_char rfl hstep _).trans (yyparse_newline _ text)

end Entries

end CodesSim.Config
