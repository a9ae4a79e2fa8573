import CodesSim.Config.Grammar

/-!
# The writer of the configuration language

`txtfile_writeConfig` lists a section and looks each entry up again, by its name.  Names and values
are written as they are.

Each function returns the text it writes, and whether `ret` is still not negative; after the first
failure of a section only indentation is written for the rest of it.
-/

namespace CodesSim.Config

/-! ### What is looked up is smaller -/

variable {sec children : List Entry}

variable {name : CStr}

theorem findSubsection_mem (h : findSubsection sec name = some children) :
    ∃ name', .subsection name' children ∈ sec ∧ strcasecmp name' name = true := by
  induction sec with
  | nil => cases h
  | cons e es ih =>
    cases e with
    | key name' values =>
      obtain ⟨name', hmem, hsame⟩ := ih h
      exact ⟨name', List.mem_cons_of_mem _ hmem, hsame⟩
    | subsection name' children' =>
      unfold findSubsection at h
      split_ifs at h with hsame
      · obtain rfl := Option.some.inj h
        exact ⟨name', List.mem_cons_self, hsame⟩
      · obtain ⟨name', hmem, hsame⟩ := ih h
        exact ⟨name', List.mem_cons_of_mem _ hmem, hsame⟩

theorem sizeOf_children (h : .subsection name children ∈ sec) : sizeOf children < sizeOf sec := by
  have hlt := List.sizeOf_lt_of_mem h
  have hsize : sizeOf children < sizeOf (Entry.subsection name children) := by
    rw [Entry.subsection.sizeOf_spec]
    omega
  exact hsize.trans hlt

theorem openSection_sizeOf
    (h : openSection sec name = some children) : sizeOf children < sizeOf sec := by
  obtain ⟨name', hmem, -⟩ := findSubsection_mem h
  exact sizeOf_children hmem

/-! ### The writer -/

/-- `show_indent`. -/
def showIndent (ind : ℕ) : CStr := List.replicate ind ' '

/-- The values of a list. -/
def dumpValues : List CStr → CStr
  | [] => []
  | [v] => "\"" ++ v ++ "\" "
  | v :: vs => "\"" ++ v ++ "\" " ++ ", " ++ dumpValues vs

/-- The loop of `dump_section`. -/
def dumpEntries (write : SectionEntry → CStr × Bool) (indent : ℕ) :
    List SectionEntry → Bool → CStr × Bool
  | [], ret => ([], ret)
  | entry :: entries, ret =>
    let r := if ret then write entry else ([], false)
    let rest := dumpEntries write indent entries r.2
    (showIndent indent ++ r.1 ++ rest.1, rest.2)

mutual

/-- `dump_entry`. -/
def dumpEntry (s : List Entry) (indent : ℕ) (entry : SectionEntry) : CStr × Bool :=
  match entry.type with
  | .subsection =>
    match _h : openSection s entry.name with
    | none => (entry.name ++ " \x7b \n", false)
    | some newsec =>
      let r := dumpSection newsec (indent + 2)
      (entry.name ++ " \x7b \n" ++ r.1 ++ showIndent indent ++ "\x7d\n", r.2)
  | .key =>
    match getKey s entry.name 255 with
    | .error _ => ([], false)
    | .ok buf => (entry.name ++ " = \"" ++ buf ++ "\";\n", true)
  | .multikey =>
    match getMultiKey s entry.name with
    | .error _ => ([], false)
    | .ok ptrs => (entry.name ++ " = (" ++ dumpValues ptrs ++ ");\n", true)
termination_by 2 * sizeOf s
decreasing_by
  have hlt := openSection_sizeOf _h
  omega

/-- `dump_section`. -/
def dumpSection (s : List Entry) (indent : ℕ) : CStr × Bool :=
  dumpEntries (fun entry => dumpEntry s indent entry) indent (listSection s s.length) true
termination_by 2 * sizeOf s + 1

end

/-- `txtfile_writeConfig`, from the root. -/
def writeConfig (root : List Entry) : CStr × Bool := dumpSection root 0

end CodesSim.Config
