import CodesSim.Config.Comments

/-!
# The buffer of a literal

The rules of literals write into `string_buf` one byte after the other, and the check behind each
write (`CFGP_CHECKOVERFLOW`) is empty.  So the writes stay within the buffer exactly if the literals
of the text are short enough (`literals_within_iff`); there is no error for one that is too long, as
there is for a name.
-/

namespace CodesSim.Config

/-- The bytes that a literal writes, with the terminating zero if it is closed. -/
def literalLength : CStr → ℕ
  | [] => 0
  | c :: text =>
    if c = '"' then 1
    else if c = '\n' then 0
    else if c = '\\' then
      match _h : lexEscape text with
      | .error _ => 0
      | .ok (_, rest) => 1 + literalLength rest
    else (cstr (c :: text.takeWhile isPlain)).length + literalLength (text.dropWhile isPlain)
termination_by text => text.length
decreasing_by
  · exact Nat.lt_succ_of_lt (lexEscape_length _h)
  · exact Nat.lt_succ_of_le (List.dropWhile_suffix _).length_le

/-- The text behind the opening quote, if the next token is a literal. -/
def nextLiteral : CStr → Option CStr
  | [] => none
  | c :: text =>
    if c = '/' ∧ text.head? = some '*' then
      match _h : skipComment2 text.tail with
      | none => none
      | some rest => nextLiteral rest
    else if c = '/' ∧ text.head? = some '/' ∨ c = '#' then nextLiteral (skipComment text)
    else if c = '"' then some text
    else if isBlank c then nextLiteral (text.dropWhile isBlank)
    else if c = '\n' then nextLiteral text
    else none
termination_by text => text.length
decreasing_by
  · refine Nat.lt_succ_of_le ((skipComment2_length _h).trans ?_)
    rw [List.length_tail]
    exact Nat.sub_le _ _
  · exact Nat.lt_succ_of_le (skipComment_length text)
  · exact Nat.lt_succ_of_le (List.dropWhile_suffix _).length_le
  · exact Nat.lt_succ_self _

/-- The texts behind the opening quotes of the literals of a text. -/
def literals (text : CStr) : List CStr :=
  (nextLiteral text).toList ++
    match _h : yylex text with
    | .token _ rest => literals rest
    | .eof => []
    | .error _ => []
termination_by text.length
decreasing_by exact yylex_length _h

section Literals

variable {buf text body rest : CStr} {t : Token}

theorem literalLength_error {e : LexError} (h : lexEscape text = .error e) :
    literalLength ('\\' :: text) = 0 := by
  rw [literalLength, if_neg (by decide), if_neg (by decide), if_pos rfl]
  split
  · rfl
  · next heq => rw [h] at heq; cases heq

theorem literalLength_escape {x : Char} (h : lexEscape text = .ok (x, rest)) :
    literalLength ('\\' :: text) = 1 + literalLength rest := by
  rw [literalLength, if_neg (by decide), if_neg (by decide), if_pos rfl]
  split
  · next heq => rw [h] at heq; cases heq
  · next heq =>
    rw [h] at heq
    cases heq
    rfl

/-- **A literal** is written behind the buffer exactly if it is too long. -/
theorem lexString_overflow_iff (buf text : CStr) (hbuf : buf.length ≤ stringBufSize) :
    lexString buf text = .error .overflow ↔ stringBufSize < buf.length + literalLength text := by
  fun_induction lexString buf text with
  | case1 buf =>
    rw [literalLength]
    simp [hbuf]
  | case2 buf text hlt =>
    rw [literalLength, if_pos rfl]
    simp only [reduceCtorEq, false_iff]
    omega
  | case3 buf text hlt =>
    rw [literalLength, if_pos rfl]
    simp only [true_iff]
    omega
  | case4 buf text hq =>
    rw [literalLength, if_neg hq, if_pos rfl]
    simp [hbuf]
  | case5 buf text e hescape =>
    rw [literalLength_error hescape]
    refine iff_of_false (fun h => ?_) (Nat.not_lt.2 hbuf)
    cases h
    exact absurd (lexEscape_error hescape) (by decide)
  | case6 buf text x rest hescape hlt hq hn ih =>
    rw [literalLength_escape hescape, ih (by simp; omega), List.length_append,
      List.length_singleton, Nat.add_assoc]
  | case7 buf text x rest hescape hfull =>
    rw [literalLength_escape hescape]
    simp only [true_iff]
    omega
  | case8 buf c text hq hn hb copied hle ih =>
    rw [literalLength, if_neg hq, if_neg hn, if_neg hb, ih (by simpa using hle), List.length_append,
      Nat.add_assoc]
  | case9 buf c text hq hn hb copied hlong =>
    rw [literalLength, if_neg hq, if_neg hn, if_neg hb]
    simp only [true_iff]
    exact (Nat.not_le.1 hlong).trans_le (by simp only [copied]; omega)

/-- **The next token** is a literal, or is not written behind the buffer. -/
theorem nextLiteral_cases (text : CStr) :
    (∃ body, nextLiteral text = some body ∧ yylex text = lexString [] body) ∨
      nextLiteral text = none ∧ yylex text ≠ .error .overflow := by
  fun_induction nextLiteral text with
  | case1 =>
    rw [yylex]
    simp
  | case2 c text hc hskip =>
    obtain ⟨rfl, hhead⟩ := hc
    obtain ⟨text, rfl⟩ := List.head?_eq_some_iff.1 hhead
    have hskip : skipComment2 text = none := hskip
    rw [yylex_block_none hskip]
    simp
  | case3 c text hc rest hskip ih =>
    obtain ⟨rfl, hhead⟩ := hc
    obtain ⟨text, rfl⟩ := List.head?_eq_some_iff.1 hhead
    have hskip : skipComment2 text = some rest := hskip
    rw [yylex_block hskip]
    exact ih
  | case4 c text hc hline ih =>
    rcases hline with ⟨rfl, hhead⟩ | rfl
    · obtain ⟨text, rfl⟩ := List.head?_eq_some_iff.1 hhead
      rw [yylex_slashes]
      exact ih
    · rw [yylex_hash]
      exact ih
  | case5 text => exact .inl ⟨text, rfl, yylex_quote text⟩
  | case6 c text _ _ _ hblank ih =>
    rw [← yylex_blanks (c :: text), List.dropWhile_cons_of_pos hblank]
    exact ih
  | case7 text _ _ _ _ ih =>
    rw [yylex_newline]
    exact ih
  | case8 c text hblock hline hquote hblank hnewline =>
    refine .inr ⟨rfl, ?_⟩
    rw [yylex, if_neg hblock, if_neg hline, if_neg hquote]
    split_ifs
    · simp
    · simp
    · split
      · simp
      · simp

theorem short_iff (text : CStr) : yylex text ≠ .error .overflow ↔
    ∀ body ∈ (nextLiteral text).toList, literalLength body ≤ stringBufSize := by
  obtain ⟨body, hnext, hlex⟩ | ⟨hnext, hlex⟩ := nextLiteral_cases text
  · rw [hnext, hlex, ne_eq, lexString_overflow_iff [] body (Nat.zero_le _), List.length_nil,
      Nat.zero_add, Nat.not_lt]
    simp
  · rw [hnext]
    simp [hlex]

theorem literals_token (h : yylex text = .token t rest) :
    literals text = (nextLiteral text).toList ++ literals rest := by
  rw [literals]
  congr 1
  split
  · next heq =>
    rw [h] at heq
    cases heq
    rfl
  · next heq => rw [h] at heq; cases heq
  · next heq => rw [h] at heq; cases heq

theorem literals_last (h : ∀ t rest, yylex text ≠ .token t rest) :
    literals text = (nextLiteral text).toList := by
  rw [literals]
  split
  · next heq => exact absurd heq (h _ _)
  · exact List.append_nil _
  · exact List.append_nil _

/-- **Literals.**  No byte is written behind the buffer exactly if all literals fit into it. -/
theorem literals_within_iff (text : CStr) : (lexAll text).2 ≠ some .overflow ↔
    ∀ body ∈ literals text, literalLength body ≤ stringBufSize := by
  induction hlen : text.length using Nat.strong_induction_on generalizing text with
  | _ n ih =>
    subst hlen
    have hshort := short_iff text
    cases hlex : yylex text with
    | eof =>
      rw [literals_last (by simp [hlex]), ← hshort, lexAll_eof hlex, hlex]
      simp
    | error e =>
      rw [literals_last (by simp [hlex]), ← hshort, lexAll_error hlex, hlex]
      simp
    | token t rest =>
      have hrest := ih rest.length (yylex_length hlex) rest rfl
      rw [hlex] at hshort
      rw [literals_token hlex, lexAll_token hlex]
      simp only [List.mem_append, or_imp, forall_and]
      rw [← hshort, ← hrest]
      simp

end Literals

/-- A literal of 512 letters. -/
def longLiteral : CStr := '"' :: (List.replicate 512 'a' ++ ['"'])

/-- Its terminating zero is written behind the buffer. -/
theorem longLiteral_overflows : (lexAll longLiteral).2 = some .overflow := by
  decide +kernel

end CodesSim.Config
