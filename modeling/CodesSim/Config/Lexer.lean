import CodesSim.Config.Store
import Mathlib.Data.List.TakeWhile

/-!
# The lexer of the configuration language

The rules of `configlex.l`: of the rules of a start condition the longest match is taken, and the
first rule among those of equal length.

* `lexString` is the start condition `STRING_LITERAL`.  What is written behind `string_buf` is an
  error of its own, as no rule checks it.
* `skipComment` and `skipComment2` are the start conditions of comments.
* `yylex` returns the next token and the text behind it.
-/

namespace CodesSim.Config

/-! ### Tokens -/

/-- A token (`configparser.y`). -/
inductive Token where
  | literalString (value : CStr)
  | identifier (name : CStr)
  | openSection
  | closeSection
  | equalToken
  | semicolumn
  | komma
  | lopen
  | lclose
  deriving DecidableEq

/-- How lexing fails. -/
inductive LexError where
  /-- "Unterminated /*". -/
  | unterminatedComment
  /-- "Unterminated string constant". -/
  | unterminatedString
  /-- "Out of bounds \\0xx escape in string!". -/
  | octalRange
  /-- "Bad \\xxxx escape in string!". -/
  | badEscape
  /-- "ID too long". -/
  | idTooLong
  /-- "Unexpected character". -/
  | unexpected (c : Char)
  /-- A write behind `string_buf`, which no rule reports. -/
  | overflow
  deriving DecidableEq

/-- What `yylex` returns, and the text that is left. -/
inductive Lexed where
  | eof
  | token (t : Token) (rest : CStr)
  | error (e : LexError)

/-- The size of `string_buf`. -/
def stringBufSize : ℕ := 512

/-! ### String literals -/

/-- `[^\\\n\"]`. -/
def isPlain (c : Char) : Bool := c != '\\' && c != '\n' && c != '"'

/-- `[0-7]`. -/
def isOctal (c : Char) : Bool := '0' ≤ c && c ≤ '7'

/-- The number of octal digits. -/
def octalVal (digits : CStr) : ℕ := digits.foldl (fun n c => 8 * n + (c.toNat - '0'.toNat)) 0

/-- The character behind a backslash. -/
def unescape (c : Char) : Char :=
  if c = 'n' then '\n'
  else if c = 't' then '\t'
  else if c = 'r' then '\r'
  else if c = 'b' then '\x08'
  else if c = 'f' then '\x0c'
  else c

/-- The rules that start with a backslash, on what follows it. -/
def lexEscape (text : CStr) : Except LexError (Char × CStr) :=
  let digits := text.takeWhile Char.isDigit
  let octal := (text.takeWhile isOctal).take 3
  if digits ≠ [] then
    -- `\\[0-9]+` is taken only where it matches more than `\\[0-7]{1,3}`
    if octal.length < digits.length then .error .badEscape
    else if 0xff < octalVal octal then .error .octalRange
    else .ok (Char.ofNat (octalVal octal), text.drop octal.length)
  else
    match text with
    | [] => .error .unterminatedString
    | c :: rest => .ok (unescape c, rest)

variable {text rest : CStr}

variable {c : Char}

theorem lexEscape_length (h : lexEscape text = .ok (c, rest)) : rest.length < text.length := by
  unfold lexEscape at h
  simp only at h
  split_ifs at h with hdigits hlong hrange
  · obtain ⟨-, rfl⟩ := Prod.mk.inj (Except.ok.inj h)
    have hpos : 0 < (text.takeWhile Char.isDigit).length := List.length_pos_of_ne_nil hdigits
    have hle := (List.takeWhile_prefix (p := Char.isDigit) (l := text)).length_le
    rw [List.length_drop]
    omega
  · match text, h with
    | c' :: rest', h =>
      obtain ⟨-, rfl⟩ := Prod.mk.inj (Except.ok.inj h)
      exact Nat.lt_succ_self _

/-- `STRING_LITERAL`, behind the opening quote; `buf` is what was written into `string_buf`. -/
def lexString (buf : CStr) : CStr → Lexed
  | [] => .eof
  | c :: text =>
    if c = '"' then
      -- the terminating zero is written too
      if buf.length < stringBufSize then .token (.literalString (cstr buf)) text
      else .error .overflow
    else if c = '\n' then .error .unterminatedString
    else if c = '\\' then
      match _h : lexEscape text with
      | .error e => .error e
      | .ok (x, rest) =>
        if buf.length < stringBufSize then lexString (buf ++ [x]) rest else .error .overflow
    else
      -- of a match the loop copies what stands before a zero
      let copied := cstr (c :: text.takeWhile isPlain)
      if buf.length + copied.length ≤ stringBufSize then
        lexString (buf ++ copied) (text.dropWhile isPlain)
      else .error .overflow
termination_by text => text.length
decreasing_by
  · exact Nat.lt_succ_of_lt (lexEscape_length _h)
  · exact Nat.lt_succ_of_le (List.dropWhile_suffix _).length_le

/-! ### Comments -/

/-- `COMMENT`, up to the end of the line. -/
def skipComment (text : CStr) : CStr := (text.dropWhile (· ≠ '\n')).tail

theorem skipComment_length (text : CStr) : (skipComment text).length ≤ text.length := by
  unfold skipComment
  rw [List.length_tail]
  exact (Nat.sub_le _ _).trans (List.dropWhile_suffix _).length_le

/-- `COMMENT2`.  `.+` takes the rest of a line, and more than the terminator if anything else stands
there. -/
def skipComment2 (text : CStr) : Option CStr :=
  if text.takeWhile (· ≠ '\n') = "*/" then some (text.dropWhile (· ≠ '\n'))
  else
    match _h : text.dropWhile (· ≠ '\n') with
    | [] => none
    | _ :: rest => skipComment2 rest
termination_by text.length
decreasing_by
  have hle := (List.dropWhile_suffix (l := text) (· ≠ '\n')).length_le
  rw [_h] at hle
  exact hle

theorem skipComment2_length (h : skipComment2 text = some rest) : rest.length ≤ text.length := by
  induction text using skipComment2.induct with
  | case1 text hend =>
    rw [skipComment2, if_pos hend] at h
    obtain rfl := Option.some.inj h
    exact (List.dropWhile_suffix _).length_le
  | case2 text hend hdrop =>
    rw [skipComment2, if_neg hend] at h
    split at h
    · cases h
    · next heq => rw [hdrop] at heq; cases heq
  | case3 text hend c more hdrop ih =>
    rw [skipComment2, if_neg hend] at h
    have hle := (List.dropWhile_suffix (l := text) (· ≠ '\n')).length_le
    split at h
    · cases h
    · next heq =>
      obtain ⟨-, rfl⟩ := List.cons.inj (hdrop.symm.trans heq)
      rw [hdrop] at hle
      exact (ih h).trans ((Nat.le_succ _).trans hle)

/-! ### The initial state -/

/-- `[a-zA-Z0-9_\-]`. -/
def idChar (c : Char) : Bool := c.isAlphanum || c == '_' || c == '-'

/-- The longest match of `ID`, and what is left. -/
def scanId (text : CStr) : CStr × CStr :=
  match text.dropWhile idChar with
  | '@' :: more =>
    if more.takeWhile idChar = [] then (text.takeWhile idChar, '@' :: more)
    else (text.takeWhile idChar ++ '@' :: more.takeWhile idChar, more.dropWhile idChar)
  | rest => (text.takeWhile idChar, rest)

/-- `[ \t]`. -/
def isBlank (c : Char) : Bool := c == ' ' || c == '\t'

/-- The tokens that are one character. -/
def charToken (c : Char) : Option Token :=
  if c = '{' then some .openSection
  else if c = '}' then some .closeSection
  else if c = ';' then some .semicolumn
  else if c = '=' then some .equalToken
  else if c = ',' then some .komma
  else if c = ')' then some .lclose
  else if c = '(' then some .lopen
  else none

/-- The next token. -/
def yylex : CStr → Lexed
  | [] => .eof
  | c :: text =>
    if c = '/' ∧ text.head? = some '*' then
      match _h : skipComment2 text.tail with
      | none => .error .unterminatedComment
      | some rest => yylex rest
    else if c = '/' ∧ text.head? = some '/' ∨ c = '#' then yylex (skipComment text)
    else if c = '"' then lexString [] text
    else if c.isAlpha then
      if (scanId (c :: text)).1.length < stringBufSize then
        .token (.identifier (scanId (c :: text)).1) (scanId (c :: text)).2
      else .error .idTooLong
    else
      match charToken c with
      | some t => .token t text
      | none =>
        if isBlank c then yylex (text.dropWhile isBlank)
        else if c = '\n' then yylex text
        else .error (.unexpected c)
termination_by text => text.length
decreasing_by
  · refine Nat.lt_succ_of_le ((skipComment2_length _h).trans ?_)
    rw [List.length_tail]
    exact Nat.sub_le _ _
  · exact Nat.lt_succ_of_le (skipComment_length text)
  · exact Nat.lt_succ_of_le (List.dropWhile_suffix _).length_le
  · exact Nat.lt_succ_self _

/-! ### What is left is shorter -/

variable {t : Token}

theorem lexString_length {buf : CStr} (h : lexString buf text = .token t rest) :
    rest.length < text.length := by
  fun_induction lexString buf text with
  | case1 => cases h
  | case2 => cases h; exact Nat.lt_succ_self _
  | case3 => cases h
  | case4 => cases h
  | case5 => cases h
  | case6 buf text x more hescape =>
    rename_i ih
    exact (ih h).trans (Nat.lt_succ_of_lt (lexEscape_length hescape))
  | case7 => cases h
  | case8 buf c text hq hn hb copied hle ih =>
    exact (ih h).trans_le ((List.dropWhile_suffix _).length_le.trans (Nat.le_succ _))
  | case9 => cases h

theorem scanId_rest_length (hc : idChar c = true) (text : CStr) :
    (scanId (c :: text)).2.length < (c :: text).length := by
  have hdrop : (c :: text).dropWhile idChar = text.dropWhile idChar := List.dropWhile_cons_of_pos hc
  have hle := (List.dropWhile_suffix (l := text) idChar).length_le
  unfold scanId
  rw [hdrop]
  refine Nat.lt_succ_of_le ?_
  split
  · next more heq =>
    rw [heq] at hle
    split_ifs
    · exact hle
    · exact ((List.dropWhile_suffix _).length_le.trans (Nat.le_succ _)).trans hle
  · exact hle

theorem idChar_of_isAlpha (h : c.isAlpha = true) : idChar c = true := by
  simp [idChar, Char.isAlphanum, h]

/-- **Each token takes text away.** -/
theorem yylex_length (h : yylex text = .token t rest) : rest.length < text.length := by
  fun_induction yylex text with
  | case1 => cases h
  | case2 => cases h
  | case3 c text hc more hskip ih =>
    have hle := skipComment2_length hskip
    rw [List.length_tail] at hle
    exact (ih h).trans_le ((hle.trans (Nat.sub_le _ _)).trans (Nat.le_succ _))
  | case4 c text hc hline ih =>
    exact (ih h).trans_le ((skipComment_length text).trans (Nat.le_succ _))
  | case5 => exact (lexString_length h).trans (Nat.lt_succ_self _)
  | case6 c text hc hline hq halpha hlt =>
    cases h
    exact scanId_rest_length (idChar_of_isAlpha halpha) text
  | case7 => cases h
  | case8 => cases h; exact Nat.lt_succ_self _
  | case9 c text hc hline hq halpha htoken hblank ih =>
    exact (ih h).trans_le ((List.dropWhile_suffix _).length_le.trans (Nat.le_succ _))
  | case10 text hc hline hq halpha htoken hblank ih => exact (ih h).trans (Nat.lt_succ_self _)
  | case11 => cases h

/-! ### Names and values of tokens -/

/-- A name of a section or a key: what `ID` matches, if it is not too long. -/
structure IsId (name : CStr) : Prop where
  alpha : ∃ c rest, name = c :: rest ∧ c.isAlpha = true
  form : (∀ c ∈ name, idChar c = true) ∨ ∃ base anno, name = base ++ '@' :: anno ∧
    (∀ c ∈ base, idChar c = true) ∧ anno ≠ [] ∧ ∀ c ∈ anno, idChar c = true
  short : name.length < stringBufSize

/-- A value: what `string_buf` holds. -/
structure IsLiteral (value : CStr) : Prop where
  noNul : NoNul value
  short : value.length < stringBufSize

/-- What a token carries. -/
def Token.Wf : Token → Prop
  | .identifier name => IsId name
  | .literalString value => IsLiteral value
  | _ => True

theorem isLiteral_cstr {buf : CStr} (h : buf.length < stringBufSize) : IsLiteral (cstr buf) := by
  refine ⟨fun hmem => ?_, (List.takeWhile_prefix _).length_le.trans_lt h⟩
  have hne := List.mem_takeWhile_imp hmem
  exact absurd rfl (of_decide_eq_true hne)

theorem scanId_form (text : CStr) : (∀ c ∈ (scanId text).1, idChar c = true) ∨
    ∃ base anno, (scanId text).1 = base ++ '@' :: anno ∧ (∀ c ∈ base, idChar c = true) ∧ anno ≠ [] ∧
      ∀ c ∈ anno, idChar c = true := by
  unfold scanId
  split
  · next more heq =>
    split_ifs with hanno
    · exact .inl fun c hc => List.mem_takeWhile_imp hc
    · exact .inr ⟨_, _, rfl, fun c hc => List.mem_takeWhile_imp hc, hanno,
        fun c hc => List.mem_takeWhile_imp hc⟩
  · exact .inl fun c hc => List.mem_takeWhile_imp hc

theorem scanId_cons (hc : idChar c = true) (text : CStr) :
    ∃ rest, (scanId (c :: text)).1 = c :: rest := by
  have htake : (c :: text).takeWhile idChar = c :: text.takeWhile idChar :=
    List.takeWhile_cons_of_pos hc
  unfold scanId
  rw [htake]
  split
  · split_ifs
    · exact ⟨_, rfl⟩
    · exact ⟨_, rfl⟩
  · exact ⟨_, rfl⟩

/-- **A name is read back** in front of a blank. -/
theorem scanId_name {name : CStr} (h : IsId name) (text : CStr) :
    scanId (name ++ ' ' :: text) = (name, ' ' :: text) := by
  rcases h.form with hall | ⟨base, anno, rfl, hbase, hne, hanno⟩
  · unfold scanId
    rw [List.dropWhile_append_of_pos hall, List.takeWhile_append_of_pos hall,
      List.dropWhile_cons_of_neg (by decide), List.takeWhile_cons_of_neg (by decide),
      List.append_nil]
    split
    · next more heq => exact absurd (List.cons.inj heq).1 (by decide)
    · rfl
  · unfold scanId
    rw [List.append_assoc, List.dropWhile_append_of_pos hbase, List.takeWhile_append_of_pos hbase,
      List.cons_append, List.dropWhile_cons_of_neg (by decide),
      List.takeWhile_cons_of_neg (by decide), List.append_nil]
    simp only
    rw [List.dropWhile_append_of_pos hanno, List.takeWhile_append_of_pos hanno,
      List.dropWhile_cons_of_neg (by decide), List.takeWhile_cons_of_neg (by decide),
      List.append_nil, if_neg hne]

theorem lexString_wf {buf : CStr} (h : lexString buf text = .token t rest) :
    ∃ value, t = .literalString value ∧ IsLiteral value := by
  fun_induction lexString buf text with
  | case2 buf text hlt => cases h; exact ⟨_, rfl, isLiteral_cstr hlt⟩
  | case6 buf text x more hescape =>
    rename_i ih
    exact ih h
  | case8 buf c text hq hn hb copied hle ih => exact ih h
  | _ => cases h

/-- **What tokens carry fits.** -/
theorem yylex_wf (h : yylex text = .token t rest) : t.Wf := by
  fun_induction yylex text with
  | case3 c text hc more hskip ih => exact ih h
  | case4 c text hc hline ih => exact ih h
  | case5 =>
    obtain ⟨value, rfl, hvalue⟩ := lexString_wf h
    exact hvalue
  | case6 c text hc hline hq halpha hlt =>
    cases h
    obtain ⟨more, hmore⟩ := scanId_cons (idChar_of_isAlpha halpha) text
    exact ⟨⟨c, more, hmore, halpha⟩, scanId_form _, hlt⟩
  | case8 c text hc hline hq halpha t' htoken =>
    cases h
    unfold charToken at htoken
    split_ifs at htoken <;> cases htoken <;> trivial
  | case9 c text hc hline hq halpha htoken hblank ih => exact ih h
  | case10 text hc hline hq halpha htoken hblank ih => exact ih h
  | _ => cases h

end CodesSim.Config
