import CodesSim.Config.ReadBack
import Mathlib.Algebra.GroupWithZero.Nat

/-!
# Values that are not read back

A value with a quote, a backslash or a newline is written as it is.  What the lexer then reads as a
literal ends earlier, is shorter for its escapes, or runs on behind the closing quote; it is never
the value (`lexString_ne`).
-/

namespace CodesSim.Config

/-! ### A literal behind which a quote follows -/

variable {c : Char}

theorem takeWhile_stop {p : Char → Bool} (hc : p c = false) (u text : CStr) :
    (u ++ c :: text).takeWhile p = u.takeWhile p := by
  induction u with
  | nil => exact List.takeWhile_cons_of_neg (by rw [hc]; exact Bool.false_ne_true)
  | cons x u ih =>
    rw [List.cons_append, List.takeWhile_cons, List.takeWhile_cons, ih]

theorem dropWhile_stop {p : Char → Bool} (hc : p c = false) (u text : CStr) :
    (u ++ c :: text).dropWhile p = u.dropWhile p ++ c :: text := by
  induction u with
  | nil => exact List.dropWhile_cons_of_neg (by rw [hc]; exact Bool.false_ne_true)
  | cons x u ih =>
    rw [List.cons_append, List.dropWhile_cons, List.dropWhile_cons, ih]
    split_ifs
    · rfl
    · rfl

theorem lexEscape_quote {u text rest : CStr} {x : Char} (hu : u ≠ [])
    (h : lexEscape (u ++ '"' :: text) = .ok (x, rest)) :
    ∃ u', rest = u' ++ '"' :: text ∧ u'.length < u.length ∧ u' <:+ u := by
  unfold lexEscape at h
  rw [takeWhile_stop rfl, takeWhile_stop rfl] at h
  simp only at h
  split_ifs at h with hdigits hlong hrange
  · obtain ⟨-, rfl⟩ := Prod.mk.inj (Except.ok.inj h)
    have hpos : 0 < (u.takeWhile Char.isDigit).length := List.length_pos_of_ne_nil hdigits
    have hle := (List.takeWhile_prefix (p := isOctal) (l := u)).length_le
    have htake : ((u.takeWhile isOctal).take 3).length ≤ u.length :=
      (List.length_take_le' _ _).trans hle
    refine ⟨u.drop ((u.takeWhile isOctal).take 3).length, List.drop_append_of_le_length htake, ?_,
      List.drop_suffix _ _⟩
    rw [List.length_drop]
    omega
  · cases u with
    | nil => exact absurd rfl hu
    | cons c u =>
      obtain ⟨-, rfl⟩ := Prod.mk.inj (Except.ok.inj h)
      exact ⟨u, rfl, Nat.lt_succ_self _, List.suffix_cons c u⟩

/-- What becomes of a literal that was written with the text `u`: it is not longer, and shorter if
`u` is not clean, or its closing quote was escaped. -/
def LiteralOf (buf u text w : CStr) : Prop :=
  (w.length ≤ buf.length + u.length ∧ (¬Clean u → w.length < buf.length + u.length)) ∨
    ∃ b rest, b.length < buf.length + u.length ∧ u.getLast? = some '\\' ∧
      lexString (b ++ ['"']) text = .token (.literalString w) rest

theorem getLast?_of_suffix {u' u : CStr} (hsuffix : u' <:+ u)
    (h : u'.getLast? = some c) : u.getLast? = some c := by
  obtain ⟨pre, rfl⟩ := hsuffix
  rw [List.getLast?_append, h, Option.some_or]

theorem LiteralOf.of_rest {buf buf' u u' text w : CStr} (h : LiteralOf buf' u' text w)
    (hsuffix : u' <:+ u) (hlen : buf'.length + u'.length ≤ buf.length + u.length)
    (hclean : ¬Clean u → ¬Clean u' ∨ buf'.length + u'.length < buf.length + u.length) :
    LiteralOf buf u text w := by
  rcases h with ⟨hle, hlt⟩ | ⟨b, rest, hb, hlast, hrun⟩
  · refine .inl ⟨hle.trans hlen, fun hu => ?_⟩
    rcases hclean hu with hu' | hshort
    · exact (hlt hu').trans_le hlen
    · exact hle.trans_lt hshort
  · exact .inr ⟨b, rest, hb.trans_le hlen, getLast?_of_suffix hsuffix hlast, hrun⟩

theorem lexString_literalOf {buf u text rest w : CStr}
    (h : lexString buf (u ++ '"' :: text) = .token (.literalString w) rest) :
    LiteralOf buf u text w := by
  induction hlen : u.length using Nat.strong_induction_on generalizing buf u with
  | _ n ih =>
    subst hlen
    have hcstr : ∀ s : CStr, (cstr s).length ≤ s.length := fun s =>
      (List.takeWhile_prefix _).length_le
    cases u with
    | nil =>
      rw [List.nil_append, lexString, if_pos rfl] at h
      split_ifs at h
      cases h
      exact .inl ⟨hcstr buf, fun hclean => absurd (fun c hc => absurd hc List.not_mem_nil) hclean⟩
    | cons c u =>
      rw [List.cons_append, lexString] at h
      by_cases hquote : c = '"'
      · rw [if_pos hquote] at h
        split_ifs at h
        cases h
        have hle := hcstr buf
        exact .inl ⟨by rw [List.length_cons]; omega, fun _ => by rw [List.length_cons]; omega⟩
      rw [if_neg hquote] at h
      by_cases hnewline : c = '\n'
      · rw [if_pos hnewline] at h
        cases h
      rw [if_neg hnewline] at h
      by_cases hslash : c = '\\'
      · rw [if_pos hslash] at h
        cases u with
        | nil =>
          -- the backslash is the last character, and the quote behind it is copied
          split at h
          · cases h
          · next x more hescape =>
            cases hescape
            split_ifs at h
            exact .inr ⟨buf, rest, Nat.lt_succ_self _, by rw [hslash]; rfl, h⟩
        | cons c' u =>
          split at h
          · cases h
          · next x more hescape =>
            split_ifs at h
            obtain ⟨u', rfl, hlt, hsuffix⟩ := lexEscape_quote (List.cons_ne_nil c' u) hescape
            have hshort : (buf ++ [x]).length + u'.length < buf.length + (c :: c' :: u).length := by
              simp only [List.length_append, List.length_cons, List.length_nil] at hlt ⊢
              omega
            exact (ih u'.length (hlt.trans (Nat.lt_succ_self _)) h rfl).of_rest
              (hsuffix.trans (List.suffix_cons c _)) hshort.le fun _ => .inr hshort
      · rw [if_neg hslash, takeWhile_stop rfl, dropWhile_stop rfl] at h
        simp only at h
        split_ifs at h
        have hsplit := congrArg List.length
          (List.takeWhile_append_dropWhile (p := isPlain) (l := u))
        have hcopied := hcstr (c :: u.takeWhile isPlain)
        rw [List.length_append] at hsplit
        rw [List.length_cons] at hcopied
        have hsuffix := List.dropWhile_suffix (l := u) isPlain
        refine (ih (u.dropWhile isPlain).length (Nat.lt_succ_of_le hsuffix.length_le) h rfl).of_rest
          (hsuffix.trans (List.suffix_cons c u)) ?_ fun hunclean => .inl fun hrest => hunclean ?_
        · rw [List.length_append, List.length_cons]
          omega
        · intro x hx
          rcases List.mem_cons.1 hx with rfl | hx
          · simp [isPlain, hquote, hnewline, hslash]
          · rw [← List.takeWhile_append_dropWhile (p := isPlain) (l := u)] at hx
            rcases List.mem_append.1 hx with hx | hx
            · exact List.mem_takeWhile_imp hx
            · exact hrest x hx

/-! ### What follows a value -/

theorem lexString_plain {buf s text rest : CStr} {t : Token} (hne : s ≠ [])
    (hplain : Clean s) (hc : isPlain c = false)
    (h : lexString buf (s ++ c :: text) = .token t rest) :
    lexString (buf ++ cstr s) (c :: text) = .token t rest := by
  cases s with
  | nil => exact absurd rfl hne
  | cons x s =>
    have hx : (x ≠ '\\' ∧ x ≠ '\n') ∧ x ≠ '"' := by
      simpa [isPlain] using hplain x List.mem_cons_self
    have hrest : ∀ x ∈ s, isPlain x = true := fun x hx => hplain x (List.mem_cons_of_mem _ hx)
    rw [List.cons_append, lexString, if_neg hx.2, if_neg hx.1.2, if_neg hx.1.1, takeWhile_stop hc,
      dropWhile_stop hc, List.takeWhile_eq_self_iff.2 hrest, List.dropWhile_eq_nil_iff.2 hrest] at h
    simp only at h
    split_ifs at h
    exact h

theorem lexString_line {buf s text rest : CStr} {t : Token} (hne : s ≠ [])
    (hplain : Clean s) : lexString buf (s ++ '\n' :: text) ≠ .token t rest := by
  intro h
  have h' := lexString_plain hne hplain rfl h
  rw [lexString, if_neg (by decide), if_pos rfl] at h'
  cases h'

variable {u text rest w : CStr}

/-- **A value that is not clean** is not read back in a key with one value: the literal is
shorter. -/
theorem lexString_short (hu : ¬Clean u)
    (h : lexString [] (u ++ '"' :: ';' :: '\n' :: text) = .token (.literalString w) rest) :
    w.length < u.length := by
  rcases lexString_literalOf h with ⟨-, hlt⟩ | ⟨b, rest, -, -, hrun⟩
  · simpa using hlt hu
  · exact absurd hrun (lexString_line (s := [';']) (by decide) (by decide))

theorem lexString_last (hu : ¬Clean u)
    (h : lexString [] (u ++ '"' :: ' ' :: ')' :: ';' :: '\n' :: text) =
      .token (.literalString w) rest) : w ≠ u := by
  rcases lexString_literalOf h with ⟨-, hlt⟩ | ⟨b, rest, -, -, hrun⟩
  · rintro rfl
    exact absurd (hlt hu) (by simp)
  · exact absurd hrun (lexString_line (s := " );") (by decide) (by decide))

/-- Nor is it before another value: what follows an escaped quote ends in a blank. -/
theorem lexString_next (hu : ¬Clean u)
    (h : lexString [] (u ++ '"' :: ' ' :: ',' :: ' ' :: '"' :: text) =
      .token (.literalString w) rest) : w ≠ u := by
  rcases lexString_literalOf h with ⟨-, hlt⟩ | ⟨b, rest, hb, hlast, hrun⟩
  · rintro rfl
    exact absurd (hlt hu) (by simp)
  · rintro rfl
    have hrun' := lexString_plain (s := " , ".toList) (by decide) (by decide) rfl
      hrun
    rw [lexString, if_pos rfl] at hrun'
    split_ifs at hrun'
    obtain ⟨heq, -⟩ : (cstr ((b ++ ['"']) ++ cstr " , ".toList) = w) ∧ _ := by
      simpa using hrun'
    by_cases hnul : ∀ c ∈ b, decide (c ≠ '\x00') = true
    · -- nothing is cut off, and the last character is a blank
      have hself : cstr ((b ++ ['"']) ++ cstr " , ".toList) = b ++ "\" , ".toList := by
        unfold cstr
        rw [List.append_assoc, List.takeWhile_append_of_pos hnul]
        rfl
      have hblank : "\" , ".toList.getLast? = some ' ' := rfl
      rw [← heq, hself, List.getLast?_append, hblank, Option.some_or] at hlast
      exact absurd (Option.some.inj hlast) (by decide)
    · -- it is cut off at a zero
      have hcut : cstr ((b ++ ['"']) ++ cstr " , ".toList) = b.takeWhile (· ≠ '\x00') := by
        unfold cstr
        rw [List.append_assoc, List.takeWhile_append, if_neg]
        intro hall
        exact hnul (List.takeWhile_eq_self_iff.1 ((List.takeWhile_prefix _).eq_of_length hall))
      rw [← heq, hcut] at hb
      have hle := (List.takeWhile_prefix (p := fun c => decide (c ≠ '\x00')) (l := b)).length_le
      rw [List.length_nil, Nat.zero_add] at hb
      exact absurd hb (Nat.not_lt.2 hle)

end CodesSim.Config
