import CodesSim.Config.Escapes

/-!
# Block comments

The text of a comment is matched line by line (`.+`), and the terminator is a rule of its own: it is
found only where nothing else stands in its line.  Such a comment is no more than a blank.  Any
other one goes on in the next line, which makes a difference unless a comment is opened behind it in
the same line (`comment_isBlank_iff`).
-/

namespace CodesSim.Config

/-! ### All tokens -/

/-- The tokens of a text, and the error where lexing ends. -/
def lexAll (text : CStr) : List Token × Option LexError :=
  match _h : yylex text with
  | .eof => ([], none)
  | .error e => ([], some e)
  | .token t rest => (t :: (lexAll rest).1, (lexAll rest).2)
termination_by text.length
decreasing_by all_goals exact yylex_length _h

/-- A text leaves the lexer in its initial state. -/
def endsInitial : CStr → Bool
  | [] => true
  | c :: text =>
    if c = '/' ∧ text.head? = some '*' then
      match _h : skipComment2 text.tail with
      | none => false
      -- at the end of the text the terminator is taken together with what follows
      | some [] => false
      | some (c' :: rest) => endsInitial (c' :: rest)
    else if c = '/' ∧ text.head? = some '/' ∨ c = '#' then
      match _h : text.dropWhile (· ≠ '\n') with
      | [] => false
      | _ :: rest => endsInitial rest
    else if c = '"' then
      match _h : lexString [] text with
      | .token _ rest => endsInitial rest
      | .eof => false
      | .error _ => false
    else if c.isAlpha then
      if (scanId (c :: text)).1.length < stringBufSize then endsInitial (scanId (c :: text)).2
      else false
    else if (charToken c).isSome ∨ isBlank c ∨ c = '\n' then endsInitial text
    else false
termination_by text => text.length
decreasing_by
  · have hle := skipComment2_length _h
    rw [List.length_tail] at hle
    exact Nat.lt_succ_of_le (hle.trans (Nat.sub_le _ _))
  · have hle := (List.dropWhile_suffix (l := text) (· ≠ '\n')).length_le
    rw [_h, List.length_cons] at hle
    exact Nat.lt_succ_of_le ((Nat.le_succ _).trans hle)
  · exact Nat.lt_succ_of_lt (lexString_length _h)
  · exact scanId_rest_length (idChar_of_isAlpha (by assumption)) text
  · exact Nat.lt_succ_self _

theorem lexAll_token {text rest : CStr} {t : Token} (h : yylex text = .token t rest) :
    lexAll text = (t :: (lexAll rest).1, (lexAll rest).2) := by
  rw [lexAll]
  split
  · next heq => rw [h] at heq; cases heq
  · next heq => rw [h] at heq; cases heq
  · next heq =>
    rw [h] at heq
    cases heq
    rfl

theorem lexAll_eof {text : CStr} (h : yylex text = .eof) : lexAll text = ([], none) := by
  rw [lexAll]
  split
  · rfl
  · next heq => rw [h] at heq; cases heq
  · next heq => rw [h] at heq; cases heq

theorem lexAll_error {text : CStr} {e : LexError} (h : yylex text = .error e) :
    lexAll text = ([], some e) := by
  rw [lexAll]
  split
  · next heq => rw [h] at heq; cases heq
  · next heq =>
    rw [h] at heq
    cases heq
    rfl
  · next heq => rw [h] at heq; cases heq

/-- Only the next token counts. -/
theorem lexAll_congr {text text' : CStr} (h : yylex text = yylex text') :
    lexAll text = lexAll text' := by
  cases hlex : yylex text' with
  | eof => rw [lexAll_eof hlex, lexAll_eof (h.trans hlex)]
  | error e => rw [lexAll_error hlex, lexAll_error (h.trans hlex)]
  | token t rest => rw [lexAll_token hlex, lexAll_token (h.trans hlex)]

/-! ### Rules -/

section Rules

variable {c : Char} {text rest : CStr}

theorem yylex_block (h : skipComment2 text = some rest) :
    yylex ('/' :: '*' :: text) = yylex rest := by
  rw [yylex, if_pos ⟨rfl, rfl⟩]
  split
  · next heq => rw [List.tail_cons, h] at heq; cases heq
  · next heq =>
    rw [List.tail_cons, h] at heq
    cases heq
    rfl

theorem yylex_block_none (h : skipComment2 text = none) :
    yylex ('/' :: '*' :: text) = .error .unterminatedComment := by
  rw [yylex, if_pos ⟨rfl, rfl⟩]
  split
  · rfl
  · next heq => rw [List.tail_cons, h] at heq; cases heq

theorem yylex_slashes (text : CStr) :
    yylex ('/' :: '/' :: text) = yylex (skipComment ('/' :: text)) := by
  rw [yylex, if_neg (by simp), if_pos (.inl ⟨rfl, rfl⟩)]

theorem yylex_hash (text : CStr) : yylex ('#' :: text) = yylex (skipComment text) := by
  rw [yylex, if_neg (by simp), if_pos (.inr rfl)]

end Rules

/-! ### Texts in front of a comment or a blank -/

/-- A text begins with a comment or a blank. -/
def Apart (w : CStr) : Prop := ∃ c more, w = c :: more ∧ (c = '/' ∨ c = ' ')

/-- The tokens of a text are those in front of what follows. -/
def Passes (u : CStr) (ts : List Token) : Prop :=
  ∀ w, Apart w → lexAll (u ++ w) = (ts ++ (lexAll w).1, (lexAll w).2)

section Passes

variable {u u' : CStr} {ts : List Token} {t : Token} {w : CStr}

theorem Passes.skip (hskip : ∀ w, Apart w → yylex (u ++ w) = yylex (u' ++ w)) (h : Passes u' ts) :
    Passes u ts := by
  intro w hw
  rw [lexAll_congr (hskip w hw)]
  exact h w hw

theorem Passes.token (htoken : ∀ w, Apart w → yylex (u ++ w) = .token t (u' ++ w))
    (h : Passes u' ts) : Passes u (t :: ts) := by
  intro w hw
  rw [lexAll_token (htoken w hw), h w hw]
  rfl

variable {p : Char → Bool}

theorem Apart.takeWhile (hw : Apart w) (hslash : p '/' = false)
    (hblank : p ' ' = false) (u : CStr) : (u ++ w).takeWhile p = u.takeWhile p := by
  obtain ⟨c, more, rfl, rfl | rfl⟩ := hw
  · exact takeWhile_stop hslash u more
  · exact takeWhile_stop hblank u more

theorem Apart.dropWhile (hw : Apart w) (hslash : p '/' = false)
    (hblank : p ' ' = false) (u : CStr) : (u ++ w).dropWhile p = u.dropWhile p ++ w := by
  obtain ⟨c, more, rfl, rfl | rfl⟩ := hw
  · exact dropWhile_stop hslash u more
  · exact dropWhile_stop hblank u more

/-- What follows a name does not belong to it. -/
theorem Apart.scanId (hw : Apart w) (u : CStr) :
    scanId (u ++ w) = ((scanId u).1, (scanId u).2 ++ w) := by
  have htake := hw.takeWhile (p := idChar) rfl rfl
  have hdrop := hw.dropWhile (p := idChar) rfl rfl
  unfold Config.scanId
  rw [htake, hdrop]
  cases hrest : u.dropWhile idChar with
  | nil =>
    obtain ⟨c, more, rfl, rfl | rfl⟩ := hw
    · rfl
    · rfl
  | cons c more =>
    rw [List.cons_append]
    by_cases hat : c = '@'
    · subst hat
      simp only [htake, hdrop]
      split_ifs
      · rfl
      · rfl
    · split
      · next heq => exact absurd (List.cons.inj heq).1 hat
      · split
        · next heq => exact absurd (List.cons.inj heq).1 hat
        · rfl

/-- The rules of strings and comments do not look behind the end of what they match. -/
theorem takeWhile_append_of_drop {c : Char} {rest : CStr}
    (h : u.dropWhile p = c :: rest) (w : CStr) :
    (u ++ w).takeWhile p = u.takeWhile p ∧ (u ++ w).dropWhile p = c :: (rest ++ w) := by
  have hc : p c = false := by
    have hhead := List.head?_dropWhile_not p u
    rw [h] at hhead
    simpa using hhead
  have hsplit : u ++ w = u.takeWhile p ++ c :: (rest ++ w) := by
    conv_lhs => rw [← List.takeWhile_append_dropWhile (p := p) (l := u), h]
    simp
  have hall : ∀ x ∈ u.takeWhile p, p x = true := fun x hx => List.mem_takeWhile_imp hx
  constructor
  · rw [hsplit, List.takeWhile_append_of_pos hall, List.takeWhile_cons_of_neg (by simp [hc]),
      List.append_nil]
  · rw [hsplit, List.dropWhile_append_of_pos hall, List.dropWhile_cons_of_neg (by simp [hc])]

theorem skipComment2_append {text : CStr} {c : Char} {rest : CStr}
    (h : skipComment2 text = some (c :: rest)) (w : CStr) :
    skipComment2 (text ++ w) = some (c :: (rest ++ w)) := by
  fun_induction skipComment2 text with
  | case1 text hend =>
    obtain ⟨htake, hdrop⟩ := takeWhile_append_of_drop (Option.some.inj h) w
    rw [skipComment2, htake, if_pos hend, hdrop]
  | case2 => cases h
  | case3 text hend c' more hdrop' ih =>
    obtain ⟨htake, hdrop⟩ := takeWhile_append_of_drop hdrop' w
    rw [skipComment2, htake, if_neg hend]
    split
    · next heq => rw [hdrop] at heq; cases heq
    · next heq =>
      rw [hdrop] at heq
      cases heq
      exact ih h

theorem dropWhile_ne_nil (h : (u.takeWhile p).length < u.length) :
    ∃ c rest, u.dropWhile p = c :: rest := by
  have hlen := congrArg List.length (List.takeWhile_append_dropWhile (p := p) (l := u))
  rw [List.length_append] at hlen
  refine List.exists_cons_of_ne_nil fun hnil => ?_
  rw [hnil, List.length_nil] at hlen
  omega

theorem isDigit_of_isOctal {c : Char} (h : isOctal c = true) : c.isDigit = true := by
  have hoctal : '0' ≤ c ∧ c ≤ '7' := by simpa [isOctal] using h
  have hlow : 48 ≤ c.toNat := hoctal.1
  have hhigh : c.toNat ≤ 55 := hoctal.2
  have hdigit : 48 ≤ c.toNat ∧ c.toNat ≤ 57 := by omega
  simpa [Char.isDigit, UInt32.le_iff_toNat_le] using hdigit

theorem takeWhile_length_le {q : Char → Bool} (hpq : ∀ c, p c = true → q c = true) (u : CStr) :
    (u.takeWhile p).length ≤ (u.takeWhile q).length := by
  induction u with
  | nil => exact Nat.le_refl _
  | cons c u ih =>
    by_cases hp : p c = true
    · rw [List.takeWhile_cons_of_pos hp, List.takeWhile_cons_of_pos (hpq c hp)]
      exact Nat.succ_le_succ ih
    · rw [List.takeWhile_cons_of_neg hp]
      exact Nat.zero_le _

theorem lexEscape_append {text rest : CStr} {x c : Char} (h : lexEscape text = .ok (x, c :: rest))
    (w : CStr) : lexEscape (text ++ w) = .ok (x, c :: (rest ++ w)) := by
  unfold lexEscape at h
  simp only at h
  by_cases hdigits : text.takeWhile Char.isDigit = []
  · rw [if_neg (not_not.2 hdigits)] at h
    cases text with
    | nil => cases h
    | cons c' rest' =>
      obtain ⟨rfl, rfl⟩ := Prod.mk.inj (Except.ok.inj h)
      have hc' : ¬c'.isDigit = true := fun hc' => by
        rw [List.takeWhile_cons_of_pos hc'] at hdigits
        cases hdigits
      unfold lexEscape
      rw [List.cons_append, List.takeWhile_cons_of_neg hc', if_neg (not_not.2 rfl)]
      rfl
  · rw [if_pos hdigits] at h
    by_cases hlong : ((text.takeWhile isOctal).take 3).length < (text.takeWhile Char.isDigit).length
    · rw [if_pos hlong] at h
      cases h
    rw [if_neg hlong] at h
    by_cases hrange : 0xff < octalVal ((text.takeWhile isOctal).take 3)
    · rw [if_pos hrange] at h
      cases h
    rw [if_neg hrange] at h
    obtain ⟨rfl, hdrop⟩ := Prod.mk.inj (Except.ok.inj h)
    -- the digits end before the text does
    have hlen : ((text.takeWhile isOctal).take 3).length < text.length := by
      have hpos := congrArg List.length hdrop
      rw [List.length_drop, List.length_cons] at hpos
      omega
    have hoctal : (text.takeWhile isOctal).length ≤ (text.takeWhile Char.isDigit).length :=
      takeWhile_length_le (fun _ => isDigit_of_isOctal) text
    obtain ⟨d, ds, hd⟩ := dropWhile_ne_nil (p := Char.isDigit) (u := text) (by omega)
    obtain ⟨o, os, ho⟩ := dropWhile_ne_nil (p := isOctal) (u := text) (by omega)
    have htaked := (takeWhile_append_of_drop hd w).1
    have htakeo := (takeWhile_append_of_drop ho w).1
    unfold lexEscape
    simp only [htaked, htakeo]
    rw [if_pos hdigits, if_neg hlong, if_neg hrange, List.drop_append_of_le_length hlen.le, hdrop]
    rfl

theorem lexString_append {buf text rest : CStr} (h : lexString buf text = .token t rest)
    (w : CStr) : lexString buf (text ++ w) = .token t (rest ++ w) := by
  fun_induction lexString buf text with
  | case2 buf text hlt =>
    cases h
    rw [List.cons_append, lexString, if_pos rfl, if_pos hlt]
  | case6 buf text x more hescape hlt hq hn ih =>
    have hmore : ∃ c rest', more = c :: rest' := by
      refine List.exists_cons_of_ne_nil ?_
      rintro rfl
      rw [lexString] at h
      cases h
    obtain ⟨c, rest', rfl⟩ := hmore
    have happend := lexEscape_append hescape w
    rw [List.cons_append, lexString, if_neg (by decide), if_neg (by decide), if_pos rfl]
    split
    · next heq => rw [happend] at heq; cases heq
    · next heq =>
      rw [happend] at heq
      cases heq
      rw [if_pos hlt]
      exact ih h
  | case8 buf c text hq hn hb copied hle ih =>
    have hmore : ∃ c rest', text.dropWhile isPlain = c :: rest' := by
      refine List.exists_cons_of_ne_nil fun hnil => ?_
      rw [hnil, lexString] at h
      cases h
    obtain ⟨c', rest', hdrop⟩ := hmore
    obtain ⟨htake, hdrop'⟩ := takeWhile_append_of_drop hdrop w
    rw [hdrop] at ih h
    rw [List.cons_append, lexString, if_neg hq, if_neg hn, if_neg hb, htake]
    simp only
    rw [if_pos hle, hdrop']
    exact ih h
  | _ => cases h

/-- **A text that leaves the lexer in its initial state** has its tokens in front of what
follows. -/
theorem passes_of_endsInitial (h : endsInitial u = true) : ∃ ts, Passes u ts := by
  fun_induction endsInitial u with
  | case1 => exact ⟨[], fun w _ => rfl⟩
  | case4 c text hc c' rest hskip ih =>
    obtain ⟨ts, hts⟩ := ih h
    obtain ⟨rfl, hhead⟩ := hc
    obtain ⟨text, rfl⟩ := List.head?_eq_some_iff.1 hhead
    refine ⟨ts, hts.skip fun w _ => ?_⟩
    exact yylex_block (skipComment2_append hskip w)
  | case6 c text hc hline c' rest hdrop ih =>
    obtain ⟨ts, hts⟩ := ih h
    refine ⟨ts, hts.skip fun w _ => ?_⟩
    have hskip : skipComment (text ++ w) = rest ++ w := by
      rw [skipComment, (takeWhile_append_of_drop hdrop w).2]
      rfl
    rw [← hskip]
    rcases hline with ⟨rfl, hhead⟩ | rfl
    · obtain ⟨text, rfl⟩ := List.head?_eq_some_iff.1 hhead
      exact yylex_slashes _
    · exact yylex_hash _
  | case7 text t rest hstring _ _ ih =>
    obtain ⟨ts, hts⟩ := ih h
    refine ⟨t :: ts, hts.token fun w _ => ?_⟩
    rw [List.cons_append, yylex_quote, lexString_append hstring w]
  | case10 c text _ _ _ halpha hlt ih =>
    obtain ⟨ts, hts⟩ := ih h
    refine ⟨.identifier (scanId (c :: text)).1 :: ts, hts.token fun w hw => ?_⟩
    have hscan : scanId (c :: (text ++ w)) =
      ((scanId (c :: text)).1, (scanId (c :: text)).2 ++ w) :=
      hw.scanId (c :: text)
    rw [List.cons_append, yylex_alpha halpha, hscan, if_pos hlt]
  | case12 c text _ _ _ _ hchar ih =>
    obtain ⟨ts, hts⟩ := ih h
    rcases hchar with htoken | hblank | rfl
    · obtain ⟨t, ht⟩ := Option.isSome_iff_exists.1 htoken
      exact ⟨t :: ts, hts.token fun w _ => yylex_char ht _⟩
    · refine ⟨ts, hts.skip fun w _ => ?_⟩
      rw [List.cons_append, ← yylex_blanks (c :: (text ++ w)), List.dropWhile_cons_of_pos hblank,
        yylex_blanks]
    · exact ⟨ts, hts.skip fun w _ => yylex_newline _⟩
  | _ => cases h

end Passes

/-! ### What a comment leaves -/

/-- A comment goes on in the line behind this one. -/
def nextLine : CStr → Option CStr
  | [] => none
  | _ :: rest => skipComment2 rest

/-- A text ends where a line does. -/
def AtLineEnd (w : CStr) : Prop := w = [] ∨ w.head? = some '\n'

/-- The terminator of a block comment. -/
def terminator : CStr := "*/"

/-- A line opens a comment, in front of which there are only blanks, and does not close it. -/
def OpensComment (line : CStr) : Prop :=
  ∃ r, line.dropWhile isBlank = '/' :: '*' :: r ∧ r ≠ terminator

section Comment

variable {line body w : CStr}

theorem takeWhile_line (hline : '\n' ∉ line) (hw : AtLineEnd w) :
    (line ++ w).takeWhile (· ≠ '\n') = line ∧ (line ++ w).dropWhile (· ≠ '\n') = w := by
  have hall : ∀ c ∈ line, decide (c ≠ '\n') = true := fun c hc =>
    decide_eq_true fun h => hline (h ▸ hc)
  rw [List.takeWhile_append_of_pos hall, List.dropWhile_append_of_pos hall]
  rcases hw with rfl | hhead
  · simp
  · obtain ⟨more, rfl⟩ := List.head?_eq_some_iff.1 hhead
    exact ⟨by rw [List.takeWhile_cons_of_neg (by decide), List.append_nil],
      List.dropWhile_cons_of_neg (by decide)⟩

/-- **One line** of a comment. -/
theorem skipComment2_line (hline : '\n' ∉ line) (hw : AtLineEnd w) :
    skipComment2 (line ++ w) = if line = terminator then some w else nextLine w := by
  obtain ⟨htake, hdrop⟩ := takeWhile_line hline hw
  rw [skipComment2, htake]
  by_cases hend : line = terminator
  · have hend' : line = "*/" := hend
    rw [if_pos hend, if_pos hend', hdrop]
  · have hend' : ¬line = "*/" := hend
    rw [if_neg hend, if_neg hend']
    cases w with
    | nil =>
      split
      · rfl
      · next heq => rw [hdrop] at heq; cases heq
    | cons c rest =>
      split
      · next heq => rw [hdrop] at heq; cases heq
      · next heq =>
        rw [hdrop] at heq
        cases heq
        rfl

theorem exists_lastLine (body : CStr) : ∃ lines line, body = lines ++ line ∧ '\n' ∉ line ∧
    (lines = [] ∨ lines.getLast? = some '\n') ∧
    ((body = [] ∨ body.getLast? = some '\n') ↔ line = []) := by
  induction body with
  | nil => exact ⟨[], [], rfl, List.not_mem_nil, .inl rfl, by simp⟩
  | cons c body ih =>
    obtain ⟨lines, line, rfl, hline, hlines, hend⟩ := ih
    rcases hlines with rfl | hlast
    · by_cases hc : c = '\n'
      · refine ⟨[c], line, rfl, hline, .inr (by rw [hc]; rfl), ?_⟩
        cases line with
        | nil => simp [hc]
        | cons d line =>
          simp only [List.nil_append, reduceCtorEq, false_or, iff_false] at hend
          simpa using hend
      · refine ⟨[], c :: line, rfl, ?_, .inl rfl, ?_⟩
        · rintro (_ | ⟨_, hmem⟩)
          · exact hc rfl
          · exact hline hmem
        · cases line with
          | nil => simpa using hc
          | cons d line =>
            simp only [List.nil_append, reduceCtorEq, false_or, iff_false] at hend
            simpa using hend
    · obtain ⟨d, lines, rfl⟩ : ∃ d l, lines = d :: l := by
        cases lines with
        | nil => cases hlast
        | cons d l => exact ⟨d, l, rfl⟩
      refine ⟨c :: d :: lines, line, rfl, hline, .inr (by simpa using hlast), ?_⟩
      cases line with
      | nil => simpa using hlast
      | cons e line => simpa using hend

theorem skipComment2_lines {lines : CStr} (hlines : lines = [] ∨ lines.getLast? = some '\n')
    (hfree : ¬terminator <:+: lines) (text : CStr) :
    skipComment2 (lines ++ text) = skipComment2 text := by
  induction hlen : lines.length using Nat.strong_induction_on generalizing lines with
  | _ n ih =>
    subst hlen
    rcases hlines with rfl | hlast
    · rfl
    have hmem : '\n' ∈ lines := List.mem_of_getLast? hlast
    obtain ⟨line, rest, rfl, hline⟩ := List.eq_append_cons_of_mem hmem
    have hne : line ≠ terminator := by
      rintro rfl
      exact hfree (List.prefix_append _ _).isInfix
    have hrest : rest = [] ∨ rest.getLast? = some '\n' := by
      cases rest with
      | nil => exact .inl rfl
      | cons c rest => exact .inr (by simpa using hlast)
    have hfree' : ¬terminator <:+: rest := fun h =>
      hfree (h.trans ⟨line ++ ['\n'], [], by simp⟩)
    have hstep := skipComment2_line (w := '\n' :: (rest ++ text)) hline (.inr rfl)
    rw [if_neg hne] at hstep
    rw [List.append_assoc, List.cons_append, hstep]
    exact ih rest.length (by simp; omega) hrest hfree' rfl

/-- The next token if a comment goes on in the next line. -/
def behind (w : CStr) : Lexed :=
  match nextLine w with
  | none => .error .unterminatedComment
  | some rest => yylex rest

theorem yylex_open (hline : '\n' ∉ line) (hw : AtLineEnd w) :
    yylex ('/' :: '*' :: (line ++ w)) = if line = terminator then yylex w else behind w := by
  have hskip := skipComment2_line hline hw
  by_cases hend : line = terminator
  · rw [if_pos hend] at hskip ⊢
    exact yylex_block hskip
  · rw [if_neg hend] at hskip ⊢
    unfold behind
    cases hnext : nextLine w with
    | none => exact yylex_block_none (hskip.trans hnext)
    | some rest => exact yylex_block (hskip.trans hnext)

theorem yylex_body (hbody : ¬terminator <:+: body) (text : CStr)
    {lines last : CStr} (hsplit : body = lines ++ last)
    (hlines : lines = [] ∨ lines.getLast? = some '\n') :
    yylex ('/' :: '*' :: (body ++ text)) = yylex ('/' :: '*' :: (last ++ text)) := by
  have hfree : ¬terminator <:+: lines := fun h => by
    refine hbody (h.trans ?_)
    rw [hsplit]
    exact (List.prefix_append _ _).isInfix
  have hskip := skipComment2_lines hlines hfree (last ++ text)
  rw [← List.append_assoc, ← hsplit] at hskip
  cases hrest : skipComment2 (last ++ text) with
  | none => rw [yylex_block_none hrest, yylex_block_none (hskip.trans hrest)]
  | some rest => rw [yylex_block hrest, yylex_block (hskip.trans hrest)]

/-- Nothing else stands in the line of the terminator. -/
def Alone (body line : CStr) : Prop := (body = [] ∨ body.getLast? = some '\n') ∧ line = []

instance (body line : CStr) : Decidable (Alone body line) := inferInstanceAs (Decidable (_ ∧ _))

/-- **Behind a comment**: what follows if nothing else stands in the line of the terminator, and
else the comment goes on. -/
theorem yylex_comment (hbody : ¬terminator <:+: body) (hline : '\n' ∉ line) (hw : AtLineEnd w) :
    yylex ('/' :: '*' :: (body ++ (terminator ++ line ++ w))) =
      if Alone body line then yylex w else behind w := by
  obtain ⟨lines, last, hsplit, hlast, hlines, hend⟩ := exists_lastLine body
  have hlong : '\n' ∉ last ++ (terminator ++ line) := by
    simp only [List.mem_append, not_or]
    exact ⟨hlast, by decide, hline⟩
  have halone : last ++ (terminator ++ line) = terminator ↔ Alone body line := by
    rw [Alone, hend]
    constructor
    · intro h
      have hlen := congrArg List.length h
      simp only [List.length_append] at hlen
      exact ⟨List.length_eq_zero_iff.1 (by omega), List.length_eq_zero_iff.1 (by omega)⟩
    · rintro ⟨rfl, rfl⟩
      rfl
  rw [yylex_body hbody _ hsplit hlines, ← List.append_assoc last, yylex_open hlong hw]
  simp only [halone]

theorem yylex_opensComment (h : OpensComment line) (hline : '\n' ∉ line) (hw : AtLineEnd w) :
    yylex (line ++ w) = behind w := by
  obtain ⟨r, hr, hne⟩ := h
  have hdrop : (line ++ w).dropWhile isBlank = '/' :: '*' :: (r ++ w) :=
    (takeWhile_append_of_drop hr w).2
  have hr' : '\n' ∉ r := fun hmem => by
    have hsuffix := List.dropWhile_suffix (l := line) isBlank
    rw [hr] at hsuffix
    exact hline (hsuffix.subset (by simp [hmem]))
  rw [← yylex_blanks, hdrop, yylex_open hr' hw, if_neg hne]

theorem lexEscape_error {text : CStr} {e : LexError} (h : lexEscape text = .error e) :
    e = .badEscape ∨ e = .octalRange ∨ e = .unterminatedString := by
  unfold lexEscape at h
  dsimp only at h
  split_ifs at h
  · exact .inl (Except.error.inj h).symm
  · exact .inr (.inl (Except.error.inj h).symm)
  · cases text with
    | nil => exact .inr (.inr (Except.error.inj h).symm)
    | cons c text => cases h

theorem lexString_ne_comment (buf text : CStr) :
    lexString buf text ≠ .error .unterminatedComment := by
  fun_induction lexString buf text with
  | case5 buf text e hescape =>
    intro h
    cases h
    exact absurd (lexEscape_error hescape) (by decide)
  | case6 buf text x more hescape hlt hq hn ih => exact ih
  | case8 buf c text hq hn hb copied hle ih => exact ih
  | _ => simp

theorem skipComment_line (hline : '\n' ∉ line) : skipComment line = [] := by
  have hdrop := (takeWhile_line (w := []) hline (.inl rfl)).2
  rw [List.append_nil] at hdrop
  rw [skipComment, hdrop]
  rfl

theorem opensComment_of_error (hline : '\n' ∉ line)
    (h : yylex line = .error .unterminatedComment) : OpensComment line := by
  have hnil : yylex [] = .eof := by rw [yylex]
  rw [← yylex_blanks] at h
  have hline' : '\n' ∉ line.dropWhile isBlank := fun hmem =>
    hline ((List.dropWhile_suffix _).subset hmem)
  have hblank := List.head?_dropWhile_not isBlank line
  unfold OpensComment
  generalize line.dropWhile isBlank = line' at *
  cases line' with
  | nil =>
    rw [hnil] at h
    cases h
  | cons c text =>
    have hc : c ≠ '\n' := fun hc => hline' (hc ▸ List.mem_cons_self)
    have htext : '\n' ∉ text := fun hmem => hline' (List.mem_cons_of_mem _ hmem)
    have hblank : isBlank c ≠ true := by simpa using hblank
    by_cases hblock : c = '/' ∧ text.head? = some '*'
    · obtain ⟨rfl, hhead⟩ := hblock
      obtain ⟨r, rfl⟩ := List.head?_eq_some_iff.1 hhead
      have hr : '\n' ∉ r := fun hmem => htext (List.mem_cons_of_mem _ hmem)
      refine ⟨r, rfl, fun hend => ?_⟩
      have hopen := yylex_open (w := []) hr (.inl rfl)
      rw [List.append_nil, if_pos hend, hnil] at hopen
      rw [hopen] at h
      cases h
    rw [yylex, if_neg hblock] at h
    exfalso
    split_ifs at h with hcomment hquote halpha hlt
    · rw [skipComment_line htext, hnil] at h
      cases h
    · exact lexString_ne_comment _ _ h
    · cases h
    · split at h
      · cases h
      · cases h

end Comment

/-! ### Comments and blanks -/

/-- Whatever stands before it and in the lines behind it, a comment is no more than a blank. -/
def CommentIsBlank (body line : CStr) : Prop :=
  ∀ u w, endsInitial u = true → AtLineEnd w →
    lexAll (u ++ ('/' :: '*' :: (body ++ (terminator ++ line ++ w)))) =
    lexAll (u ++ ' ' :: (line ++ w))

/-- **A comment is a blank** exactly if nothing else stands in the line in which it ends, or only
blanks and an unfinished comment. -/
theorem comment_isBlank_iff (body line : CStr) (hbody : ¬terminator <:+: body)
    (hline : '\n' ∉ line) : CommentIsBlank body line ↔ Alone body line ∨ OpensComment line := by
  constructor
  · intro h
    by_cases halone : Alone body line
    · exact .inl halone
    -- at the end of the text the comment is not finished
    have hcomment := yylex_comment (w := []) hbody hline (.inl rfl)
    rw [if_neg halone] at hcomment
    have heq := h [] [] (by rw [endsInitial]) (.inl rfl)
    rw [List.nil_append, List.nil_append, lexAll_error hcomment, lexAll_congr (yylex_blank _),
      List.append_nil] at heq
    refine .inr (opensComment_of_error hline ?_)
    cases hlex : yylex line with
    | eof =>
      rw [lexAll_eof hlex] at heq
      cases heq
    | token t rest =>
      rw [lexAll_token hlex] at heq
      cases heq
    | error e =>
      rw [lexAll_error hlex] at heq
      cases heq
      rfl
  · intro h u w hu hw
    obtain ⟨ts, hts⟩ := passes_of_endsInitial hu
    rw [hts _ ⟨'/', _, rfl, .inl rfl⟩, hts _ ⟨' ', _, rfl, .inr rfl⟩]
    have hlex : yylex ('/' :: '*' :: (body ++ (terminator ++ line ++ w))) =
        yylex (' ' :: (line ++ w)) := by
      rw [yylex_comment hbody hline hw, yylex_blank]
      by_cases halone : Alone body line
      · rw [if_pos halone, halone.2, List.nil_append]
      · rw [if_neg halone, yylex_opensComment (h.resolve_left halone) hline hw]
    rw [lexAll_congr hlex]

theorem comment_isBlank_iff_ownLine : CommentIsBlank " text\n" [] ↔
    Alone " text\n" [] ∨ OpensComment [] :=
  comment_isBlank_iff " text\n" [] (by decide) (by decide)

/-- A name behind a comment is lost. -/
theorem name_behind_comment : lexAll "/* a */ b" = ([], some .unterminatedComment) ∧
    lexAll "  b" = ([.identifier ['b']], none) ∧
    ¬CommentIsBlank " a " " b" := by
  have hcomment : lexAll "/* a */ b" = ([], some .unterminatedComment) := by decide +kernel
  have hblank : lexAll "  b" = ([.identifier ['b']], none) := by decide +kernel
  refine ⟨hcomment, hblank, fun h => ?_⟩
  have heq := hcomment.symm.trans ((h [] [] (by rw [endsInitial]) (.inl rfl)).trans hblank)
  cases heq

end CodesSim.Config
