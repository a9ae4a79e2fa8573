import CodesSim.Config.Compile
import Mathlib.Data.List.TakeWhile

/-!
# Looking up what was emitted

A lookup takes the first section of a name, up to case, and in it the first entry with the name of
the key.  If no two names agree it finds every section (`openSection_emitted`) and every key
(`findKey_emitted`); conversely, sections that are all found and can be told apart by what is in
them have names that differ (`pairwise_of_open`).
-/

namespace CodesSim.Config

/-- The entries of an emitted section. -/
def CompiledSection.entries (s : CompiledSection) : List Entry :=
  s.keys.map emitKey ++ emitSections s.subsections

theorem emitSection_eq (s : CompiledSection) :
    emitSection s = .subsection (cstr s.name) s.entries := by
  obtain ⟨name, keys, subsections⟩ := s
  rw [emitSection]
  rfl

/-- A lookup of a key, in the sections along a path. -/
def lookupKey (tree : List Entry) : List CStr → CStr → Option (List CStr)
  | [], name => findKey tree (cstr name)
  | s :: path, name =>
    match openSection tree (cstr s) with
    | none => none
    | some children => lookupKey children path name

/-- No two keys of a section, or of one in it, have the same name. -/
inductive UniqueKeys : CompiledSection → Prop
  | mk {name : CStr} {keys : List CompiledKey} {subsections : List CompiledSection}
      (hkeys : (keys.map fun k => cstr k.name).Nodup) (hsub : ∀ s ∈ subsections, UniqueKeys s) :
      UniqueKeys (.mk name keys subsections)

variable {s : CompiledSection}

theorem UniqueKeys.keys (h : UniqueKeys s) : (s.keys.map fun k => cstr k.name).Nodup := by
  cases h with
  | mk hkeys _ => exact hkeys

theorem UniqueKeys.subsections (h : UniqueKeys s) : ∀ sub ∈ s.subsections, UniqueKeys sub := by
  cases h with
  | mk _ hsub => exact hsub

/-- Neither two keys of a section nor two sections in it have the same name, at any depth. -/
inductive UniqueNames : CompiledSection → Prop
  | mk {name : CStr} {keys : List CompiledKey} {subsections : List CompiledSection}
      (hkeys : (keys.map fun k => cstr k.name).Nodup)
      (hnames : subsections.Pairwise fun a b => iequals a.name b.name = false)
      (hsub : ∀ s ∈ subsections, UniqueNames s) :
      UniqueNames (.mk name keys subsections)

theorem UniqueNames.uniqueKeys (h : UniqueNames s) : UniqueKeys s := by
  induction h with
  | mk hkeys _ _ ih => exact .mk hkeys ih

mutual

/-- The keys of a section and of those in it, each with the sections it is in. -/
def CompiledSection.settings : CompiledSection → List (List CStr × CompiledKey)
  | .mk name keys subsections =>
    keys.map (fun k => ([name], k)) ++ (allSettings subsections).map fun p => (name :: p.1, p.2)

/-- The keys of several sections. -/
def allSettings : List CompiledSection → List (List CStr × CompiledKey)
  | [] => []
  | s :: sections => s.settings ++ allSettings sections

end

variable {sections : List CompiledSection}

variable {p : List CStr × CompiledKey}

theorem mem_allSettings : p ∈ allSettings sections ↔ ∃ s ∈ sections, p ∈ s.settings := by
  induction sections with
  | nil => simp [allSettings]
  | cons s sections ih => simp [allSettings, ih]

theorem path_of_mem_settings (h : p ∈ s.settings) : p.1 ≠ [] := by
  obtain ⟨name, keys, subsections⟩ := s
  rw [CompiledSection.settings, List.mem_append, List.mem_map, List.mem_map] at h
  obtain ⟨_, _, rfl⟩ | ⟨_, _, rfl⟩ := h
  · exact List.cons_ne_nil _ _
  · exact List.cons_ne_nil _ _

theorem iequals_comm (a b : CStr) : iequals a b = iequals b a := by
  unfold iequals strcasecmp
  exact Bool.beq_comm

/-- Sections whose names differ, up to case. -/
def DistinctNames (sections : List CompiledSection) : Prop :=
  sections.Pairwise fun a b => iequals a.name b.name = false

/-! ### Sections -/

theorem openSection_keys (keys : List CompiledKey) (es : List Entry) (name : CStr) :
    openSection (keys.map emitKey ++ es) name = openSection es name := by
  induction keys with
  | nil => rfl
  | cons k keys ih => exact ih

theorem openSection_cons (s : CompiledSection) (sections : List CompiledSection) (name : CStr) :
    openSection (emitSections (s :: sections)) name =
      if strcasecmp (cstr s.name) name = true then some s.entries
      else openSection (emitSections sections) name := by
  rw [emitSections, emitSection_eq]
  rfl

/-- **Sections with different names are found.** -/
theorem openSection_emitted (h : DistinctNames sections) (hs : s ∈ sections) :
    openSection (emitSections sections) (cstr s.name) = some s.entries := by
  induction sections with
  | nil => exact absurd hs List.not_mem_nil
  | cons first sections ih =>
    obtain ⟨hfirst, hrest⟩ := List.pairwise_cons.1 h
    rw [openSection_cons]
    rcases List.mem_cons.1 hs with rfl | hmem
    · rw [if_pos (strcasecmp_self _)]
    · have hne : ¬strcasecmp (cstr first.name) (cstr s.name) = true := by
        rw [show strcasecmp (cstr first.name) (cstr s.name) = false from hfirst s hmem]
        exact Bool.false_ne_true
      rw [if_neg hne]
      exact ih hrest hmem

/-- **Sections that are found have different names**, if what is read in them differs. -/
theorem pairwise_of_open {β : Type*} (m : List Entry → β) (hfound : ∀ s ∈ sections, ∃ children,
      openSection (emitSections sections) (cstr s.name) = some children ∧ m children = m s.entries)
    (hm : sections.Pairwise fun a b => m a.entries ≠ m b.entries) : DistinctNames sections := by
  induction sections with
  | nil => exact .nil
  | cons first sections ih =>
    obtain ⟨hfirst, hrest⟩ := List.pairwise_cons.1 hm
    have hne : ∀ s ∈ sections, iequals first.name s.name = false := fun s hs => by
      by_contra hsame
      obtain ⟨children, hopen, heq⟩ := hfound s (List.mem_cons_of_mem _ hs)
      have hsame' : strcasecmp (cstr first.name) (cstr s.name) = true := by
        simpa [iequals] using hsame
      rw [openSection_cons, if_pos hsame'] at hopen
      obtain rfl := Option.some.inj hopen
      exact hfirst s hs heq
    refine List.pairwise_cons.2 ⟨hne, ih (fun s hs => ?_) hrest⟩
    obtain ⟨children, hopen, heq⟩ := hfound s (List.mem_cons_of_mem _ hs)
    have hdiff : ¬strcasecmp (cstr first.name) (cstr s.name) = true := by
      have := hne s hs
      unfold iequals at this
      rw [this]
      exact Bool.false_ne_true
    rw [openSection_cons, if_neg hdiff] at hopen
    exact ⟨children, hopen, heq⟩

/-! ### Keys -/

variable {k : CompiledKey}

/-- **Keys with different names are found**, also in front of sections. -/
theorem findKey_emitted {keys : List CompiledKey} (h : (keys.map fun k => cstr k.name).Nodup)
    (es : List Entry) (hk : k ∈ keys) :
    findKey (keys.map emitKey ++ es) (cstr k.name) = some (k.values.map cstr) := by
  induction keys with
  | nil => exact absurd hk List.not_mem_nil
  | cons first keys ih =>
    obtain ⟨hfirst, hrest⟩ := List.nodup_cons.1 h
    rw [List.map_cons, List.cons_append]
    rcases List.mem_cons.1 hk with rfl | hmem
    · have hself : findChild (emitKey k :: (keys.map emitKey ++ es)) (cstr k.name) =
          some (emitKey k) := List.find?_cons_of_pos (beq_self_eq_true _)
      rw [findKey, hself]
      rfl
    · have hne : ¬((emitKey first).name == cstr k.name) = true := by
        intro heq
        have hname : cstr first.name = cstr k.name := eq_of_beq heq
        exact hfirst (List.mem_map.2 ⟨k, hmem, hname.symm⟩)
      have hskip : findChild (emitKey first :: (keys.map emitKey ++ es)) (cstr k.name) =
          findChild (keys.map emitKey ++ es) (cstr k.name) := List.find?_cons_of_neg hne
      rw [findKey, hskip]
      exact ih hrest hmem

theorem lookupKey_section (h : DistinctNames sections)
    (hs : s ∈ sections) (hkeys : UniqueKeys s)
    (hk : k ∈ s.keys) :
    lookupKey (emitSections sections) [s.name] k.name = some (k.values.map cstr) := by
  rw [lookupKey, openSection_emitted h hs]
  exact findKey_emitted hkeys.keys _ hk

theorem lookupKey_keys (keys : List CompiledKey) (es : List Entry) {path : List CStr}
    (hpath : path ≠ []) (name : CStr) :
    lookupKey (keys.map emitKey ++ es) path name = lookupKey es path name := by
  cases path with
  | nil => exact absurd rfl hpath
  | cons s path => rw [lookupKey, lookupKey, openSection_keys]

/-- **Every setting of a section is found**, also if keys were added to the section. -/
theorem lookupKey_settings (hs : UniqueNames s)
    (h : DistinctNames sections) {added : List CompiledKey}
    (hadded : ((s.keys ++ added).map fun k => cstr k.name).Nodup)
    (hmem : .mk s.name (s.keys ++ added) s.subsections ∈ sections)
    (hp : p ∈ s.settings) :
    lookupKey (emitSections sections) p.1 p.2.name = some (p.2.values.map cstr) := by
  induction hs generalizing sections added p with
  | @mk name keys subsections hkeys hnames hsub ih =>
    rw [CompiledSection.settings, List.mem_append, List.mem_map, List.mem_map] at hp
    have hopen : openSection (emitSections sections) (cstr name) =
        some ((keys ++ added).map emitKey ++ emitSections subsections) := openSection_emitted h hmem
    obtain ⟨k, hk, rfl⟩ | ⟨q, hq, rfl⟩ := hp
    · rw [lookupKey, hopen]
      exact findKey_emitted hadded _ (List.mem_append_left _ hk)
    · obtain ⟨sub, hsubmem, hqsub⟩ := mem_allSettings.1 hq
      have hsubmem' : .mk sub.name (sub.keys ++ []) sub.subsections ∈ subsections := by
        rw [List.append_nil]
        obtain ⟨_, _, _⟩ := sub
        exact hsubmem
      have hsubkeys : ((sub.keys ++ []).map fun k : CompiledKey => cstr k.name).Nodup := by
        rw [List.append_nil]
        exact (hsub sub hsubmem).uniqueKeys.keys
      rw [lookupKey, hopen]
      exact (lookupKey_keys _ _ (path_of_mem_settings hqsub) _).trans
        (ih sub hsubmem hnames hsubkeys hsubmem' hqsub)

theorem lookupKey_subsection (h : DistinctNames sections)
    {sub : CompiledSection} (hs : s ∈ sections) (hsub : DistinctNames s.subsections)
    (hmem : sub ∈ s.subsections) (hkeys : UniqueKeys sub) (hk : k ∈ sub.keys) :
    lookupKey (emitSections sections) [s.name, sub.name] k.name = some (k.values.map cstr) := by
  rw [lookupKey, openSection_emitted h hs]
  simp only
  rw [lookupKey, CompiledSection.entries, openSection_keys, openSection_emitted hsub hmem]
  exact findKey_emitted hkeys.keys _ hk

/-! ### Numbers -/

theorem intStr_natCast (n : ℕ) : intStr n = Nat.toDigits 10 n := by
  have h : intStr n = (Nat.repr n).toList := rfl
  rw [h, Nat.toList_repr]

theorem intStr_negSucc (n : ℕ) : intStr (.negSucc n) = '-' :: Nat.toDigits 10 (n + 1) := by
  have h : intStr (.negSucc n) = ("-" ++ Nat.repr (n + 1)).toList := rfl
  rw [h, String.toList_append, Nat.toList_repr]
  rfl

theorem toDigits_injective {m n : ℕ} (h : Nat.toDigits 10 m = Nat.toDigits 10 n) : m = n := by
  have hm := Nat.ofDigitChars_toDigits (b := 10) (n := m) (by decide) (by decide)
  rw [h, Nat.ofDigitChars_toDigits (by decide) (by decide)] at hm
  exact hm.symm

theorem isDigit_of_mem_toDigits {c : Char} {n : ℕ} (h : c ∈ Nat.toDigits 10 n) : c.isDigit = true :=
  Nat.isDigit_of_mem_toDigits (by decide) (by decide) h

theorem intStr_injective : Function.Injective intStr := by
  have hsign : ∀ m n : ℕ, Nat.toDigits 10 m ≠ '-' :: Nat.toDigits 10 n := fun m n h => by
    have hmem : '-' ∈ Nat.toDigits 10 m := by rw [h]; exact List.mem_cons_self
    exact absurd (isDigit_of_mem_toDigits hmem) (by decide)
  intro a b h
  cases a with
  | ofNat m =>
    cases b with
    | ofNat n =>
      rw [Int.ofNat_eq_natCast, Int.ofNat_eq_natCast, intStr_natCast, intStr_natCast] at h
      rw [toDigits_injective h]
    | negSucc n =>
      rw [Int.ofNat_eq_natCast, intStr_natCast, intStr_negSucc] at h
      exact absurd h (hsign _ _)
  | negSucc m =>
    cases b with
    | ofNat n =>
      rw [Int.ofNat_eq_natCast, intStr_natCast, intStr_negSucc] at h
      exact absurd h.symm (hsign _ _)
    | negSucc n =>
      rw [intStr_negSucc, intStr_negSucc] at h
      have hmn := toDigits_injective (List.tail_eq_of_cons_eq h)
      rw [Nat.succ.inj hmn]

/-- A number is written without a zero byte. -/
theorem cstr_intStr (n : ℤ) : cstr (intStr n) = intStr n := by
  have hdigits : ∀ k : ℕ, ∀ c ∈ Nat.toDigits 10 k, decide (c ≠ '\x00') = true := fun k c hc =>
    decide_eq_true fun h => absurd (h ▸ isDigit_of_mem_toDigits hc) (by decide)
  refine List.takeWhile_eq_self_iff.2 fun c hc => ?_
  cases n with
  | ofNat k =>
    rw [Int.ofNat_eq_natCast, intStr_natCast] at hc
    exact hdigits k c hc
  | negSucc k =>
    rw [intStr_negSucc] at hc
    rcases List.mem_cons.1 hc with rfl | hmem
    · decide
    · exact hdigits (k + 1) c hmem

end CodesSim.Config
