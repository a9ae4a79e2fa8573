import Mathlib.Data.Int.Notation
import Mathlib.Data.List.Basic

/-!
# The configuration tree

A configuration is a tree of named sections, whose leaves are keys with any number of values
(`configstore.c`).  Names need not be distinct: a key is looked up among all entries and case
counts, a section among the sections only and case does not count, and the first hit is taken.

* `Entry` is an entry of the tree; a section is the list of its entries.
* The functions of `configstoreadapter.c` (`getKey`, `listSection`, `openSection`) return what the
  callers see of a tree.
-/

namespace CodesSim.Config

/-- A string without the terminating zero. -/
abbrev CStr := List Char

instance coeString : Coe String CStr := ⟨String.toList⟩

/-- A string has no zero inside. -/
def NoNul (s : CStr) : Prop := '\x00' ∉ s

instance (s : CStr) : Decidable (NoNul s) := inferInstanceAs (Decidable (¬ _))

/-- The string that starts in a buffer. -/
def cstr (buf : CStr) : CStr := buf.takeWhile (· ≠ '\x00')

/-- An entry (`mcs_entry`). -/
inductive Entry where
  | subsection (name : CStr) (children : List Entry)
  | key (name : CStr) (values : List CStr)

namespace Entry

/-- The name of an entry. -/
def name : Entry → CStr
  | .subsection name _ => name
  | key name _ => name

/-- `is_section`. -/
def isSection : Entry → Bool
  | .subsection _ _ => true
  | key _ _ => false

end Entry

/-- `strcasecmp` finds no difference. -/
def strcasecmp (a b : CStr) : Bool := a.map Char.toLower == b.map Char.toLower

theorem strcasecmp_self (a : CStr) : strcasecmp a a = true := beq_self_eq_true _

theorem strcasecmp_trans {a b c : CStr} (h : strcasecmp a b = true) (h' : strcasecmp b c = true) :
    strcasecmp a c = true :=
  beq_iff_eq.2 ((beq_iff_eq.1 h).trans (beq_iff_eq.1 h'))

/-- What a listing says an entry is (`SectionEntry`). -/
inductive EntryType where
  /-- `SE_SECTION`. -/
  | subsection
  /-- `SE_KEY`: at most one value. -/
  | key
  /-- `SE_MULTIKEY`. -/
  | multikey
  deriving DecidableEq

/-- The type of an entry in a listing. -/
def Entry.type : Entry → EntryType
  | .subsection _ _ => .subsection
  | key _ values => if values.length ≤ 1 then .key else .multikey

/-- An element of a listing. -/
structure SectionEntry where
  name : CStr
  type : EntryType

/-- `mcs_findchild`. -/
def findChild (sec : List Entry) (name : CStr) : Option Entry :=
  sec.find? fun e => e.name == name

/-- `mcs_findkey`. -/
def findKey (sec : List Entry) (name : CStr) : Option (List CStr) :=
  match findChild sec name with
  | some (.key _ values) => some values
  | _ => none

/-- `mcs_findsubsection`. -/
def findSubsection : List Entry → CStr → Option (List Entry)
  | [], _ => none
  | .subsection name children :: es, wanted =>
    if strcasecmp name wanted then some children else findSubsection es wanted
  | .key _ _ :: es, wanted => findSubsection es wanted

/-- `cf_openSection`. -/
def openSection (sec : List Entry) (name : CStr) : Option (List Entry) :=
  findSubsection sec name

/-- `cf_listSection`, into an array of a size. -/
def listSection (sec : List Entry) (maxentries : ℕ) : List SectionEntry :=
  (sec.take maxentries).map fun e => ⟨e.name, e.type⟩

/-- `cf_getKey`, into a buffer of a size. -/
def getKey (sec : List Entry) (name : CStr) (bufsize : ℕ) : Except ℤ CStr :=
  match findKey sec name with
  | none => .error (-1)
  | some [] => .ok []
  | some [value] => .ok (value.take (bufsize - 1))
  | some (_ :: _ :: _) => .error (-2)

/-- `cf_getMultiKey`. -/
def getMultiKey (sec : List Entry) (name : CStr) : Except ℤ (List CStr) :=
  match findKey sec name with
  | none => .error (-1)
  | some values => .ok values

end CodesSim.Config
