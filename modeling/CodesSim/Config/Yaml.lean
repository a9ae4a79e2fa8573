import CodesSim.Config.LpGroups
import Mathlib.Data.Rat.Defs

/-!
# Documents

A YAML or JSON document as the parser hands it over, and the accessors of `config_compiler.cxx`.
The parser itself and the arithmetic of units are parameters (`Library`): the documents of a
configuration are texts, and what is done with them does not depend on how they are read.

The accessors of the parser check their precondition only if its assertions are on; if they are off,
a node without a key or a value has an empty one.
-/

namespace CodesSim.Config

/-! ### Nodes -/

/-- A node of a document.  The members of a map have keys, which need not be distinct. -/
inductive Yaml where
  | scalar (text : CStr)
  | seq (items : List Yaml)
  | map (members : List (CStr × Yaml))

namespace Yaml

def isMap : Yaml → Bool
  | map _ => true
  | _ => false

def isSeq : Yaml → Bool
  | seq _ => true
  | _ => false

def isScalar : Yaml → Bool
  | scalar _ => true
  | _ => false

/-- `children`, each with its key. -/
def children : Yaml → List (Option CStr × Yaml)
  | scalar _ => []
  | seq items => items.map fun item => (none, item)
  | map members => members.map fun m => (some m.1, m.2)

/-- `operator[]`: the first member of a map with a key. -/
def find (node : Yaml) (key : CStr) : Option Yaml :=
  match node with
  | map members => (members.find? fun m => m.1 == key).map Prod.snd
  | _ => none

end Yaml

/-- `is_keyval`. -/
def isKeyval (c : Option CStr × Yaml) : Bool := c.1.isSome && c.2.isScalar

/-! ### Errors -/

/-- `config_error`, by its message behind "config error: ". -/
abbrev ConfigError := CStr

/-- `throw config_error`. -/
def reject {α : Type} (message : List CStr) : Except ConfigError α := .error message.flatten

/-- A name between quotes. -/
def quoted (name : CStr) : CStr := '"' :: name ++ ['"']

/-- `std::to_string`. -/
def intStr (n : ℤ) : CStr := (toString n).toList

/-! ### Quantities -/

/-- `quantity`. -/
inductive Quantity where
  | time
  | size
  | bandwidth
  deriving DecidableEq

/-- `quantity_name`. -/
def Quantity.name : Quantity → CStr
  | time => "time"
  | size => "size"
  | bandwidth => "bandwidth"

/-- `classified_value`. -/
inductive ClassifiedValue where
  /-- No leading number. -/
  | plain
  | bareNumber (number : ℚ)
  | withUnit (kind : Quantity) (canonical : ℚ)
  /-- A number, and text that is no unit. -/
  | unknownSuffix

/-- What the compiler is built on. -/
structure Library where
  /-- `ryml::parse_in_arena`. -/
  parse : CStr → Except ConfigError Yaml
  /-- `RYML_USE_ASSERT`. -/
  useAssert : Bool
  /-- `classify_value`. -/
  classifyValue : CStr → ClassifiedValue
  /-- `format_number`. -/
  formatNumber : ℚ → CStr

section Library

variable (lib : Library)

/-- `scalar`. -/
def scalar : Yaml → Except ConfigError CStr
  | .scalar text => .ok text
  | _ => if lib.useAssert then reject ["YAML error"] else .ok []

/-- `key_of`. -/
def keyOf : Option CStr → Except ConfigError CStr
  | some key => .ok key
  | none => if lib.useAssert then reject ["YAML error"] else .ok []

end Library

/-! ### Numbers -/

/-- `parse_int_strict`: the whole string is a number. -/
def parseIntStrict (s what : CStr) : Except ConfigError ℤ :=
  let text := cstr s
  let digits := (splitSign (text.dropWhile isSpace)).2
  if s = [] ∨ digits.takeWhile Char.isDigit = [] ∨ digits.dropWhile Char.isDigit ≠ [] ∨
      (strtol text).2 = true then
    reject [what, " must be an integer, got ", quoted s]
  else .ok (strtol text).1

end CodesSim.Config
