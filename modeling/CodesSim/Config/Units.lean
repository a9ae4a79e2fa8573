import CodesSim.Config.Compile
import CodesSim.Lib.Numeral
import Mathlib.Data.List.DropRight

/-!
# Values with a unit

`unit_convert.cxx`: a text is a number in the unit of the model, a number with a unit, a number with
something else behind it, or no number.  `strtod` reads the number, and it takes more than base-10
numerals: hexadecimal ones (`0x1p3`), `inf`, `infinity` and `nan` in any case, and `nan(..)`.
Numbers are exact; a `Double` is one of them, an infinity or no number.
-/

namespace CodesSim.Config

namespace Units

/-! ### Numbers -/

/-- A `double`, its numbers exact. -/
inductive Double where
  | fin (q : ℚ)
  | inf (negative : Bool)
  | nan

namespace Double

/-- The product with a positive number. -/
def mul : Double → ℚ → Double
  | fin q, c => fin (q * c)
  | v, _ => v

/-- The quotient by a positive number. -/
def div : Double → ℚ → Double
  | fin q, c => fin (q / c)
  | v, _ => v

/-- `v < 0.0`, which is false of no number. -/
def isNeg : Double → Bool
  | fin q => q < 0
  | inf negative => negative
  | nan => false

end Double

/-! ### `strtod` -/

open Numeral (Style scanSigned)

def isHexDigit (c : Char) : Bool := c.isDigit || ('a' ≤ c && c ≤ 'f') || ('A' ≤ c && c ≤ 'F')

def hexVal (c : Char) : ℕ :=
  if c.isDigit then c.toNat - '0'.toNat
  else if 'a' ≤ c then c.toNat - 'a'.toNat + 10 else c.toNat - 'A'.toNat + 10

/-- Base 10, with powers of 10 behind an `e`. -/
def decimal : Style where
  base := 10
  digit := Char.isDigit
  digitVal c := c.toNat - '0'.toNat
  mark c := c == 'e' || c == 'E'
  expBase := 10
  mark_not_digit := by
    intro c hc
    obtain hc | hc := Bool.or_eq_true_iff.mp hc <;> cases eq_of_beq hc <;> decide
  sign_not_digit := by decide
  point_not_digit := by decide
  point_not_mark := by decide

/-- Base 16, with powers of 2 behind a `p`. -/
def hexadecimal : Style where
  base := 16
  digit := isHexDigit
  digitVal := hexVal
  mark c := c == 'p' || c == 'P'
  expBase := 2
  mark_not_digit := by
    intro c hc
    obtain hc | hc := Bool.or_eq_true_iff.mp hc <;> cases eq_of_beq hc <;> decide
  sign_not_digit := by decide
  point_not_digit := by decide
  point_not_mark := by decide

/-- A word in any case, and what follows it. -/
def dropWord (word text : CStr) : Option CStr :=
  if (text.take word.length).map Char.toLower = word then some (text.drop word.length) else none

/-- What follows `nan`: a `(..)` of letters, digits and `_` belongs to it. -/
def dropPayload : CStr → CStr
  | '(' :: text =>
    match text.dropWhile fun c => c.isAlphanum || c == '_' with
    | ')' :: rest => rest
    | _ => '(' :: text
  | text => text

/-- `inf`, `infinity` and `nan`. -/
def strtodWord (text : CStr) : Option (Double × CStr) :=
  let (sg, body) := Numeral.splitSign text
  match dropWord ['i', 'n', 'f'] body with
  | some rest =>
    some (.inf (sg = ['-']), (dropWord ['i', 'n', 'i', 't', 'y'] rest).getD rest)
  | none => (dropWord ['n', 'a', 'n'] body).map fun rest => (.nan, dropPayload rest)

/-- A number and what follows it. -/
def finite (r : ℚ × CStr) : Double × CStr := (.fin r.1, r.2)

/-- `strtod`: the number and what follows, if there is one. -/
def strtod (text : CStr) : Option (Double × CStr) :=
  let text := text.dropWhile isSpace
  ((scanSigned hexadecimal ['0', 'x'] text).map finite).or <|
    ((scanSigned hexadecimal ['0', 'X'] text).map finite).or <|
      ((scanSigned decimal [] text).map finite).or (strtodWord text)

/-! ### Units -/

/-- `suffix_entry`. -/
structure SuffixEntry where
  suffix : CStr
  kind : Quantity
  factor : ℚ

def kib : ℚ := 1024

def mib : ℚ := 1024 * 1024

def gib : ℚ := 1024 * 1024 * 1024

/-- `suffixes`. -/
def suffixes : List SuffixEntry :=
  [⟨['n', 's'], .time, 1⟩, ⟨['u', 's'], .time, 10 ^ 3⟩, ⟨['m', 's'], .time, 10 ^ 6⟩,
    ⟨['s'], .time, 10 ^ 9⟩,
    ⟨['B'], .size, 1⟩, ⟨['K', 'i', 'B'], .size, kib⟩, ⟨['M', 'i', 'B'], .size, mib⟩,
    ⟨['G', 'i', 'B'], .size, gib⟩,
    ⟨['K', 'B'], .size, 10 ^ 3⟩, ⟨['M', 'B'], .size, 10 ^ 6⟩, ⟨['G', 'B'], .size, 10 ^ 9⟩,
    ⟨['b', 'p', 's'], .bandwidth, 1 / 8⟩, ⟨['K', 'b', 'p', 's'], .bandwidth, 10 ^ 3 / 8⟩,
    ⟨['M', 'b', 'p', 's'], .bandwidth, 10 ^ 6 / 8⟩, ⟨['G', 'b', 'p', 's'], .bandwidth, 10 ^ 9 / 8⟩,
    ⟨['B', 'p', 's'], .bandwidth, 1⟩, ⟨['K', 'B', 'p', 's'], .bandwidth, 10 ^ 3⟩,
    ⟨['M', 'B', 'p', 's'], .bandwidth, 10 ^ 6⟩, ⟨['G', 'B', 'p', 's'], .bandwidth, 10 ^ 9⟩,
    ⟨['K', 'i', 'B', 'p', 's'], .bandwidth, kib⟩, ⟨['M', 'i', 'B', 'p', 's'], .bandwidth, mib⟩,
    ⟨['G', 'i', 'B', 'p', 's'], .bandwidth, gib⟩]

/-- `value_form`. -/
inductive ValueForm where
  | plain
  | bareNumber
  | withUnit
  | unknownSuffix
  deriving DecidableEq

/-- `classified_value`. -/
structure Classified where
  form : ValueForm := .plain
  kind : Quantity := .time
  canonical : Double := .fin 0
  number : Double := .fin 0

/-- A text without the white space around it. -/
def trim (text : CStr) : CStr := (text.dropWhile isSpace).rdropWhile isSpace

/-- What a number is classified as by what follows it. -/
def classifyRest (num : Double) (rest : CStr) : Classified :=
  if rest = [] then { form := .bareNumber, number := num }
  else match suffixes.find? fun se => se.suffix == rest with
    | some se =>
      { form := .withUnit, kind := se.kind, canonical := num.mul se.factor, number := num }
    | none => { form := .unknownSuffix, number := num }

/-- `classify_value`. -/
def classifyValue (text : CStr) : Classified :=
  let s := trim text
  if s = [] then {}
  else match strtod (cstr s) with
    | none => {}
    | some (num, rest) => classifyRest num rest

section Resolve

variable (formatNumber : Double → CStr) (units : List ParamUnit) (key raw : CStr)

/-- `resolve_param_value`. -/
def resolveParamValue : Except ConfigError CStr :=
  let cv := classifyValue raw
  match findParamUnit units key with
  | some pu =>
    match cv.form with
    | .plain | .bareNumber => .ok raw
    | .withUnit =>
      if cv.kind ≠ pu.kind then
        reject (kindMismatch key raw pu.kind cv.kind)
      else if cv.canonical.isNeg then
        reject (negativeValue key raw)
      else .ok (formatNumber (cv.canonical.div pu.internalScale))
    | .unknownSuffix =>
      reject (unrecognizedUnit key raw)
  | none =>
    if cv.form = .withUnit then
      reject (notUnitAware key raw)
    else .ok raw

end Resolve

/-! ### Exact values -/

/-- A classification says the same as one in exact numbers. -/
def Classified.Is (cv : Classified) : ClassifiedValue → Prop
  | .plain => cv.form = .plain
  | .bareNumber q => cv.form = .bareNumber ∧ cv.number = .fin q
  | .withUnit kind c => cv.form = .withUnit ∧ cv.kind = kind ∧ cv.canonical = .fin c
  | .unknownSuffix => cv.form = .unknownSuffix

theorem Classified.Is.unique {cv : Classified} {r r' : ClassifiedValue} (h : cv.Is r)
    (h' : cv.Is r') : r = r' := by
  cases r <;> cases r' <;> simp_all [Classified.Is]

/-- **On a text that is classified by exact numbers**, the value is that of the compiler. -/
theorem resolveParamValue_eq {lib : Library} {formatNumber : Double → CStr} {raw : CStr}
    (h : (classifyValue raw).Is (lib.classifyValue raw))
    (hformat : ∀ q, lib.formatNumber q = formatNumber (.fin q)) (units : List ParamUnit)
    (key : CStr) :
    resolveParamValue formatNumber units key raw = Config.resolveParamValue lib units key raw := by
  unfold resolveParamValue Config.resolveParamValue
  cases hclass : lib.classifyValue raw with
  | plain =>
    rw [hclass] at h
    have hform : (classifyValue raw).form = .plain := h
    cases findParamUnit units key <;> simp only [hform, reduceCtorEq, if_false]
  | bareNumber q =>
    rw [hclass] at h
    cases findParamUnit units key <;> simp only [h.1, reduceCtorEq, if_false]
  | withUnit kind c =>
    rw [hclass] at h
    obtain ⟨hform, rfl, hcanonical⟩ := h
    cases findParamUnit units key with
    | none => simp only [hform, if_true]
    | some pu =>
      simp only [hform, hcanonical, Double.isNeg, Double.div, hformat, decide_eq_true_eq]
  | unknownSuffix =>
    rw [hclass] at h
    have hform : (classifyValue raw).form = .unknownSuffix := h
    cases findParamUnit units key <;> simp only [hform, reduceCtorEq, if_false]

end Units

end CodesSim.Config
