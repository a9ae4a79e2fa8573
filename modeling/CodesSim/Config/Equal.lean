import CodesSim.Config.Loading
import CodesSim.Config.Writer

/-!
# Comparing two configurations

`cf_section_equal` lists two sections.  Every entry of the first must be in the second with the same
values; of the entries of the second only the names are asked for in the first, as a section or as a
key (`cf_has_entry`).

Two configurations are the same to their readers if every path of sections leads into both or into
neither, and every key at its end has the same values (`LookupEquiv`).

* `cfEqual_iff`: the trees compare equal iff they differ nowhere in a way that is `Noticed`.
* `equal_decides_iff`: **when the comparison says what the lookups say.**  It overlooks what the
  second tree has `Within` it and more, if the more is under names that the first has, of a key for
  a section or of a section for a key (`KnownNames`).  And it takes the values of a key behind a
  section of the same name for an empty list (`HiddenKey`), so that such a tree is not equal to
  itself.
* `cfEqual_both_iff`: comparing both ways round overlooks nothing.
-/

namespace CodesSim.Config

/-! ### The comparison -/

/-- `cf_has_entry`. -/
def cfHasEntry (s : List Entry) (name : CStr) : Bool :=
  match openSection s name with
  | some _ => true
  | none =>
    match getMultiKey s name with
    | .ok _ => true
    | .error _ => false

mutual

/-- An entry of the first section in the forward pass of `cf_section_equal`. -/
def cfEntryEqual (s1 s2 : List Entry) (entry : SectionEntry) : Bool :=
  match entry.type with
  | .subsection =>
    match openSection s2 entry.name with
    | none => false
    | some c2 =>
      match _h : openSection s1 entry.name with
      -- There is one: the name is that of a section of the first tree.
      | none => false
      | some c1 => cfSectionEqual c1 c2
  | _ =>
    match getMultiKey s2 entry.name with
    | .error _ => false
    | .ok p2 =>
      match getMultiKey s1 entry.name with
      -- `n1` is zero: "present by construction" is not true behind a section of the same name.
      | .error _ => [] == p2
      | .ok p1 => p1 == p2
termination_by 2 * sizeOf s1
decreasing_by
  have hlt := openSection_sizeOf _h
  omega

/-- `cf_section_equal`, without a report. -/
def cfSectionEqual (s1 s2 : List Entry) : Bool :=
  ((listSection s1 s1.length).all fun entry => cfEntryEqual s1 s2 entry) &&
    (listSection s2 s2.length).all fun entry => cfHasEntry s1 entry.name
termination_by 2 * sizeOf s1 + 1

end

/-- `cf_equal`. -/
def cfEqual (t1 t2 : List Entry) : Bool := cfSectionEqual t1 t2

/-! ### What a reader sees -/

/-- The section at the end of a path. -/
def openPath : List Entry → List CStr → Option (List Entry)
  | s, [] => some s
  | s, name :: path => (openSection s name).bind fun children => openPath children path

/-- A key at the end of a path: whether the section is there, whether the key is, and its values. -/
def lookup (t : List Entry) (path : List CStr) (key : CStr) : Option (Option (List CStr)) :=
  (openPath t path).map fun s => findKey s key

/-- No lookup tells the two trees apart. -/
def LookupEquiv (t1 t2 : List Entry) : Prop := ∀ path key, lookup t1 path key = lookup t2 path key

/-- A relation of the two sections at the end of some path that leads into both trees. -/
def AtPath (P : List Entry → List Entry → Prop) (t1 t2 : List Entry) : Prop :=
  ∃ path s1 s2, openPath t1 path = some s1 ∧ openPath t2 path = some s2 ∧ P s1 s2

/-- A key stands behind a section of the same name, where no lookup finds it. -/
def Hides (s : List Entry) : Prop :=
  ∃ name values, Entry.key name values ∈ s ∧ findKey s name = none

/-- Some section of the tree hides a key. -/
def HiddenKey (t : List Entry) : Prop := ∃ path s, openPath t path = some s ∧ Hides s

/-- How two sections may differ. -/
inductive Differs (s1 s2 : List Entry) : Prop where
  /-- A section of the first is not in the second. -/
  | sectionMissing (name : CStr) (h1 : (openSection s1 name).isSome)
    (h2 : openSection s2 name = none)
  /-- A key of the first is not in the second with the same values. -/
  | keyDiffers (name : CStr) (values : List CStr) (h1 : findKey s1 name = some values)
      (h2 : findKey s2 name ≠ some values)
  /-- A hidden key of the first is no key without values of the second. -/
  | hiddenDiffers (name : CStr) (values : List CStr) (hmem : Entry.key name values ∈ s1)
      (h1 : findKey s1 name = none) (h2 : findKey s2 name ≠ some [])
  /-- The first has nothing under the name of an entry of the second. -/
  | nothingThere (e : Entry) (hmem : e ∈ s2) (hsection : openSection s1 e.name = none)
      (hkey : findKey s1 e.name = none)

/-- The trees differ somewhere along the sections they share. -/
def Noticed (t1 t2 : List Entry) : Prop := AtPath Differs t1 t2

/-- The second tree has the sections and the keys of the first. -/
def Within (t1 t2 : List Entry) : Prop := ∀ path s1, openPath t1 path = some s1 →
  ∃ s2, openPath t2 path = some s2 ∧
    ∀ name values, findKey s1 name = some values → findKey s2 name = some values

/-- Where both trees have a section, each name of the second is that of a section or of a key of the
first. -/
def KnownNames (t1 t2 : List Entry) : Prop := ∀ path s1 s2, openPath t1 path = some s1 →
  openPath t2 path = some s2 → ∀ e ∈ s2, ¬(openSection s1 e.name = none ∧ findKey s1 e.name = none)

/-- Where both trees have a section, a hidden key of the first is a key without values of the
second. -/
def HiddenEmpty (t1 t2 : List Entry) : Prop := ∀ path s1 s2, openPath t1 path = some s1 →
  openPath t2 path = some s2 → ∀ name values, Entry.key name values ∈ s1 → findKey s1 name = none →
    findKey s2 name = some []

/-! ### Lookups in one section -/

theorem openSection_congr {a b : CStr} (h : strcasecmp a b = true) (s : List Entry) :
    openSection s a = openSection s b := by
  have hsame : ∀ name, strcasecmp name a = strcasecmp name b := fun name => by
    rw [strcasecmp, strcasecmp, beq_iff_eq.1 h]
  induction s with
  | nil => rfl
  | cons e es ih =>
    cases e with
    | key name values => exact ih
    | subsection name children =>
      change (if strcasecmp name a then _ else _) = if strcasecmp name b then _ else _
      rw [hsame name]
      split_ifs
      · rfl
      · exact ih

variable {name : CStr}

theorem openSection_isSome_of_mem {s children : List Entry}
    (h : Entry.subsection name children ∈ s) : (openSection s name).isSome := by
  obtain ⟨name', children', hopen, -⟩ := openSection_mem h
  rw [hopen]
  rfl

theorem openSection_own {s children : List Entry}
    (h : openSection s name = some children) : ∃ name', Entry.subsection name' children ∈ s ∧
      ∀ s', openSection s' name' = openSection s' name := by
  obtain ⟨name', hmem, hcase⟩ := findSubsection_mem h
  exact ⟨name', hmem, fun s' => openSection_congr hcase s'⟩

variable {s : List Entry} {values : List CStr}

theorem findKey_mem (h : findKey s name = some values) : Entry.key name values ∈ s := by
  rw [findKey] at h
  split at h
  · next found values' hfound =>
    obtain rfl := Option.some.inj h
    have hname := List.find?_some hfound
    obtain rfl : found = name := beq_iff_eq.1 hname
    exact List.mem_of_find?_eq_some hfound
  · cases h

theorem openSection_of_hidden
    (hmem : Entry.key name values ∈ s) (h : findKey s name = none) :
    (openSection s name).isSome := by
  have hchild : (findChild s name).isSome := by
    rw [findChild, List.find?_isSome]
    exact ⟨_, hmem, beq_self_eq_true _⟩
  obtain ⟨e, he⟩ := Option.isSome_iff_exists.1 hchild
  have hname : e.name = name := by simpa using List.find?_some he
  cases e with
  | key found values' =>
    rw [findKey, he] at h
    cases h
  | subsection found children =>
    obtain rfl : found = name := hname
    exact openSection_isSome_of_mem (List.mem_of_find?_eq_some he)

theorem getMultiKey_of_some
    (h : findKey s name = some values) : getMultiKey s name = .ok values := by
  rw [getMultiKey, h]

theorem getMultiKey_of_none (h : findKey s name = none) : getMultiKey s name = .error (-1) := by
  rw [getMultiKey, h]

theorem cfHasEntry_iff :
    cfHasEntry s name = true ↔ ¬(openSection s name = none ∧ findKey s name = none) := by
  rw [cfHasEntry]
  cases hopen : openSection s name with
  | some children => simp
  | none =>
    cases hkey : findKey s name with
    | some values => simp [getMultiKey_of_some hkey]
    | none => simp [getMultiKey_of_none hkey]

/-! ### One pair of sections -/

theorem cfEntryEqual_subsection {s1 s2 children : List Entry}
    (hmem : Entry.subsection name children ∈ s1) :
    cfEntryEqual s1 s2 ⟨name, .subsection⟩ = true ↔
      ∃ c1 c2, openSection s1 name = some c1 ∧ openSection s2 name = some c2 ∧
        cfSectionEqual c1 c2 = true := by
  obtain ⟨c1, hc1⟩ := Option.isSome_iff_exists.1 (openSection_isSome_of_mem hmem)
  rw [cfEntryEqual]
  cases hc2 : openSection s2 name with
  | none => simp
  | some c2 =>
    simp only [hc1, Option.some.injEq]
    split
    · next hnone =>
      rw [hc1] at hnone
      cases hnone
    · next c1' hc1' =>
      rw [hc1] at hc1'
      obtain rfl := Option.some.inj hc1'
      simp

theorem cfEntryEqual_key (s1 s2 : List Entry) (name : CStr) (values : List CStr) :
    cfEntryEqual s1 s2 ⟨name, (Entry.key name values).type⟩ = true ↔
      findKey s2 name = some ((findKey s1 name).getD []) := by
  have htype : (Entry.key name values).type ≠ .subsection := by
    rw [Entry.type]
    split_ifs <;> exact fun h => by cases h
  rw [cfEntryEqual]
  split
  · next h => exact absurd h htype
  · cases h2 : findKey s2 name with
    | none => simp [getMultiKey_of_none h2]
    | some p2 =>
      cases h1 : findKey s1 name with
      | none =>
        rw [getMultiKey_of_some h2, getMultiKey_of_none h1, Option.some.injEq]
        exact beq_iff_eq.trans eq_comm
      | some p1 =>
        rw [getMultiKey_of_some h2, getMultiKey_of_some h1, Option.some.injEq]
        exact beq_iff_eq.trans eq_comm

variable {s1 s2 : List Entry}

theorem cfSectionEqual_iff : cfSectionEqual s1 s2 = true ↔
    (∀ e ∈ s1, cfEntryEqual s1 s2 ⟨e.name, e.type⟩ = true) ∧
      ∀ e ∈ s2, cfHasEntry s1 e.name = true := by
  rw [cfSectionEqual]
  simp [listSection]

/-- **One pair of sections**: they compare equal iff they do not differ themselves and what is under
the names they share compares equal. -/
theorem cfSectionEqual_step (s1 s2 : List Entry) : cfSectionEqual s1 s2 = true ↔
    ¬Differs s1 s2 ∧ ∀ name c1 c2, openSection s1 name = some c1 → openSection s2 name = some c2 →
      cfSectionEqual c1 c2 = true := by
  rw [cfSectionEqual_iff]
  constructor
  · rintro ⟨hforward, hreverse⟩
    have hsection : ∀ name c1, openSection s1 name = some c1 →
        ∃ c2, openSection s2 name = some c2 ∧ cfSectionEqual c1 c2 = true := by
      intro name c1 h
      obtain ⟨name', hmem, hsame⟩ := openSection_own h
      obtain ⟨c1', c2, h1, h2, hequal⟩ :=
        (cfEntryEqual_subsection hmem).1 (hforward _ hmem)
      rw [hsame] at h1 h2
      obtain rfl := Option.some.inj (h.symm.trans h1)
      exact ⟨c2, h2, hequal⟩
    have hkey : ∀ name values, Entry.key name values ∈ s1 →
        findKey s2 name = some ((findKey s1 name).getD []) :=
      fun name values hmem => (cfEntryEqual_key s1 s2 name values).1 (hforward _ hmem)
    refine ⟨?_, fun name c1 c2 h1 h2 => ?_⟩
    · intro hdiff
      cases hdiff with
      | sectionMissing name h1 h2 =>
        obtain ⟨c1, hc1⟩ := Option.isSome_iff_exists.1 h1
        obtain ⟨c2, hc2, -⟩ := hsection name c1 hc1
        rw [h2] at hc2
        cases hc2
      | keyDiffers name values h1 h2 =>
        refine h2 ?_
        rw [hkey name values (findKey_mem h1), h1]
        rfl
      | hiddenDiffers name values hmem h1 h2 =>
        refine h2 ?_
        rw [hkey name values hmem, h1]
        rfl
      | nothingThere e hmem h1 h2 => exact cfHasEntry_iff.1 (hreverse e hmem) ⟨h1, h2⟩
    · obtain ⟨c2', hc2, hequal⟩ := hsection name c1 h1
      obtain rfl := Option.some.inj (h2.symm.trans hc2)
      exact hequal
  · rintro ⟨hsame, hchildren⟩
    refine ⟨fun e he => ?_, fun e he => cfHasEntry_iff.2 fun h =>
      hsame (.nothingThere e he h.1 h.2)⟩
    cases e with
    | subsection name children =>
      refine (cfEntryEqual_subsection he).2 ?_
      have hsome := openSection_isSome_of_mem he
      obtain ⟨c1, hc1⟩ := Option.isSome_iff_exists.1 hsome
      cases hc2 : openSection s2 name with
      | none => exact absurd (.sectionMissing name hsome hc2) hsame
      | some c2 => exact ⟨c1, c2, hc1, rfl, hchildren name c1 c2 hc1 hc2⟩
    | key name values =>
      refine (cfEntryEqual_key s1 s2 name values).2 ?_
      by_contra hne
      cases h1 : findKey s1 name with
      | none =>
        rw [h1] at hne
        exact hsame (.hiddenDiffers name values he h1 hne)
      | some found =>
        rw [h1] at hne
        exact hsame (.keyDiffers name found h1 hne)

/-! ### The trees -/

theorem AtPath.deeper {P : List Entry → List Entry → Prop} {t1 t2 c1 c2 : List Entry}
    (h1 : openSection t1 name = some c1) (h2 : openSection t2 name = some c2) (h : AtPath P c1 c2) :
    AtPath P t1 t2 := by
  obtain ⟨path, s1, s2, hs1, hs2, hP⟩ := h
  refine ⟨name :: path, s1, s2, ?_, ?_, hP⟩
  · rw [openPath, h1, Option.bind_some, hs1]
  · rw [openPath, h2, Option.bind_some, hs2]

theorem cfSectionEqual_eq (t1 t2 : List Entry) : cfSectionEqual t1 t2 = true ↔ ¬Noticed t1 t2 := by
  induction hsize : sizeOf t1 using Nat.strong_induction_on generalizing t1 t2 with
  | _ size ih =>
    rw [cfSectionEqual_step]
    have hchild : ∀ name c1 c2, openSection t1 name = some c1 →
        (cfSectionEqual c1 c2 = true ↔ ¬Noticed c1 c2) :=
      fun name c1 c2 h1 => ih _ (hsize ▸ openSection_sizeOf h1) c1 c2 rfl
    constructor
    · rintro ⟨hhere, hchildren⟩ ⟨path, s1, s2, hs1, hs2, hdiff⟩
      cases path with
      | nil =>
        obtain rfl := Option.some.inj hs1
        obtain rfl := Option.some.inj hs2
        exact hhere hdiff
      | cons name path =>
        obtain ⟨c1, h1, hs1⟩ := Option.bind_eq_some_iff.1 hs1
        obtain ⟨c2, h2, hs2⟩ := Option.bind_eq_some_iff.1 hs2
        exact (hchild name c1 c2 h1).1 (hchildren name c1 c2 h1 h2) ⟨path, s1, s2, hs1, hs2, hdiff⟩
    · intro hsame
      exact ⟨fun hdiff => hsame ⟨[], t1, t2, rfl, rfl, hdiff⟩, fun name c1 c2 h1 h2 =>
        (hchild name c1 c2 h1).2 fun hdeep => hsame (hdeep.deeper h1 h2)⟩

/-- **The comparison**: the trees compare equal iff they differ nowhere along the sections they
share. -/
theorem cfEqual_iff (t1 t2 : List Entry) : cfEqual t1 t2 = true ↔ ¬Noticed t1 t2 :=
  cfSectionEqual_eq t1 t2

/-! ### The lookups -/

variable {t1 t2 : List Entry}

theorem openPath_snoc (t : List Entry) (path : List CStr) (name : CStr) :
    openPath t (path ++ [name]) = (openPath t path).bind fun s => openSection s name := by
  induction path generalizing t with
  | nil => exact Option.bind_fun_some _
  | cons first path ih =>
    rw [List.cons_append, openPath, openPath, Option.bind_assoc]
    congr 1
    funext children
    exact ih children

theorem Within.keys {path : List CStr} (h : Within t1 t2) (h1 : openPath t1 path = some s1)
    (h2 : openPath t2 path = some s2) {name : CStr} {values : List CStr}
    (hkey : findKey s1 name = some values) : findKey s2 name = some values := by
  obtain ⟨s2', h2', hkeys⟩ := h path s1 h1
  obtain rfl := Option.some.inj (h2.symm.trans h2')
  exact hkeys name values hkey

theorem Within.sections {path : List CStr} (h : Within t1 t2) (h1 : openPath t1 path = some s1)
    (h2 : openPath t2 path = some s2) {name : CStr} (hsection : (openSection s1 name).isSome) :
    (openSection s2 name).isSome := by
  obtain ⟨c1, hc1⟩ := Option.isSome_iff_exists.1 hsection
  obtain ⟨c2, hc2, -⟩ := h (path ++ [name]) c1 (by rw [openPath_snoc, h1, Option.bind_some, hc1])
  rw [openPath_snoc, h2, Option.bind_some] at hc2
  rw [hc2]
  rfl

/-- No lookup tells two trees apart iff each is within the other. -/
theorem lookupEquiv_iff : LookupEquiv t1 t2 ↔ Within t1 t2 ∧ Within t2 t1 := by
  have hwithin {t1 t2 : List Entry} (h : LookupEquiv t1 t2) : Within t1 t2 := by
    intro path s1 h1
    have hpath := h path []
    rw [lookup, h1] at hpath
    obtain ⟨s2, h2, -⟩ := Option.map_eq_some_iff.1 hpath.symm
    refine ⟨s2, h2, fun name values hkey => ?_⟩
    have hname := h path name
    rw [lookup, lookup, h1, h2] at hname
    exact (Option.some.inj hname).symm.trans hkey
  refine ⟨fun h => ⟨hwithin h, hwithin fun path key => (h path key).symm⟩, fun ⟨h12, h21⟩ => ?_⟩
  intro path key
  rw [lookup, lookup]
  cases h1 : openPath t1 path with
  | none =>
    cases h2 : openPath t2 path with
    | none => rfl
    | some s2 =>
      obtain ⟨s1, hs1, -⟩ := h21 path s2 h2
      rw [h1] at hs1
      cases hs1
  | some s1 =>
    obtain ⟨s2, h2, -⟩ := h12 path s1 h1
    rw [h2]
    exact congrArg some (Option.ext fun values => ⟨h12.keys h1 h2, h21.keys h2 h1⟩)

/-- **What is noticed**: anything but what the second tree has beyond the first under names that the
first has. -/
theorem not_noticed_iff (t1 t2 : List Entry) :
    ¬Noticed t1 t2 ↔ Within t1 t2 ∧ KnownNames t1 t2 ∧ HiddenEmpty t1 t2 := by
  constructor
  · intro h
    have hnot {path : List CStr} {s1 s2 : List Entry} (h1 : openPath t1 path = some s1)
        (h2 : openPath t2 path = some s2) : ¬Differs s1 s2 :=
      fun hdiff => h ⟨path, s1, s2, h1, h2, hdiff⟩
    have hpath : ∀ path s1, openPath t1 path = some s1 → ∃ s2, openPath t2 path = some s2 := by
      intro path
      induction path using List.reverseRecOn with
      | nil => exact fun s1 _ => ⟨t2, rfl⟩
      | append_singleton path name ih =>
        intro c1 hc1
        rw [openPath_snoc] at hc1 ⊢
        obtain ⟨s1, h1, hopen⟩ := Option.bind_eq_some_iff.1 hc1
        obtain ⟨s2, h2⟩ := ih s1 h1
        rw [h2, Option.bind_some, ← Option.isSome_iff_exists, Option.isSome_iff_ne_none]
        exact fun hnone => hnot h1 h2 (.sectionMissing name (by rw [hopen]; rfl) hnone)
    refine ⟨fun path s1 h1 => ?_, fun path s1 s2 h1 h2 e he hnone => ?_,
      fun path s1 s2 h1 h2 name values hmem hnone => ?_⟩
    · obtain ⟨s2, h2⟩ := hpath path s1 h1
      exact ⟨s2, h2, fun name values hkey =>
        by_contra fun hne => hnot h1 h2 (.keyDiffers name values hkey hne)⟩
    · exact hnot h1 h2 (.nothingThere e he hnone.1 hnone.2)
    · exact by_contra fun hne => hnot h1 h2 (.hiddenDiffers name values hmem hnone hne)
  · rintro ⟨hwithin, hknown, hempty⟩ ⟨path, s1, s2, h1, h2, hdiff⟩
    cases hdiff with
    | sectionMissing name hsome hnone =>
      have hsection := hwithin.sections h1 h2 hsome
      rw [hnone] at hsection
      cases hsection
    | keyDiffers name values hkey hne => exact hne (hwithin.keys h1 h2 hkey)
    | hiddenDiffers name values hmem hnone hne =>
      exact hne (hempty path s1 s2 h1 h2 name values hmem hnone)
    | nothingThere e hmem hsection hkey => exact hknown path s1 s2 h1 h2 e hmem ⟨hsection, hkey⟩

theorem Within.knownNames (h : Within t2 t1) : KnownNames t1 t2 := by
  rintro path s1 s2 h1 h2 e hmem ⟨hsection, hkey⟩
  have hnone : ¬(openSection s2 e.name).isSome := fun hsome => by
    have hsome := h.sections h2 h1 hsome
    rw [hsection] at hsome
    cases hsome
  cases e with
  | subsection name children => exact hnone (openSection_isSome_of_mem hmem)
  | key name values =>
    refine hnone (openSection_of_hidden hmem
      (Option.eq_none_iff_forall_ne_some.2 fun found hfound => ?_))
    have hfound := h.keys h2 h1 hfound
    rw [hkey] at hfound
    cases hfound

theorem Within.hiddenEmpty_iff (h12 : Within t1 t2) (h21 : Within t2 t1) :
    HiddenEmpty t1 t2 ↔ ¬HiddenKey t1 := by
  constructor
  · rintro hempty ⟨path, s1, h1, name, values, hmem, hnone⟩
    obtain ⟨s2, h2, -⟩ := h12 path s1 h1
    have hkey := h21.keys h2 h1 (hempty path s1 s2 h1 h2 name values hmem hnone)
    rw [hnone] at hkey
    cases hkey
  · exact fun hhidden path s1 s2 h1 _ name values hmem hnone =>
      absurd ⟨path, s1, h1, name, values, hmem, hnone⟩ hhidden

/-- Trees within each other compare equal iff the first hides no key. -/
theorem Within.not_noticed_iff (h12 : Within t1 t2) (h21 : Within t2 t1) :
    ¬Noticed t1 t2 ↔ ¬HiddenKey t1 := by
  rw [Config.not_noticed_iff, and_iff_right h12, and_iff_right h21.knownNames,
    h12.hiddenEmpty_iff h21]

/-! ### What the comparison says of the lookups -/

/-- **When the comparison decides whether a lookup tells the trees apart**: it does unless each tree
has what the other has and the first hides a key, or the second has what the first has and more, all
of it under names of the first, and what the first hides is empty in the second. -/
theorem equal_decides_iff (t1 t2 : List Entry) :
    (cfEqual t1 t2 = true ↔ LookupEquiv t1 t2) ↔
      ¬(Within t1 t2 ∧ Within t2 t1 ∧ HiddenKey t1) ∧
        ¬(Within t1 t2 ∧ ¬Within t2 t1 ∧ KnownNames t1 t2 ∧ HiddenEmpty t1 t2) := by
  rw [cfEqual_iff, lookupEquiv_iff]
  by_cases h12 : Within t1 t2
  · by_cases h21 : Within t2 t1
    · have hiff := h12.not_noticed_iff h21
      tauto
    · have hiff := not_noticed_iff t1 t2
      tauto
  · have hiff := not_noticed_iff t1 t2
    tauto

/-- A key, and the same key before a section of its name. -/
theorem keyAndSection_equal :
    let a := Entry.key "a" ["1"]
    let t1 := [a]
    let t2 := [a, .subsection "a" [.key "x" ["1"]]]
    cfEqual t1 t2 = true ∧ ¬LookupEquiv t1 t2 ∧ cfEqual t2 t1 = false := by
  refine ⟨by decide +kernel, fun h => ?_, by decide +kernel⟩
  have hx := h ["a"] "x"
  revert hx
  decide

/-- **Comparing both ways round** decides whether a lookup tells apart two trees that hide no
key. -/
theorem cfEqual_both_iff (t1 t2 : List Entry) : (cfEqual t1 t2 = true ∧ cfEqual t2 t1 = true) ↔
    LookupEquiv t1 t2 ∧ ¬HiddenKey t1 ∧ ¬HiddenKey t2 := by
  rw [cfEqual_iff, cfEqual_iff, lookupEquiv_iff]
  constructor
  · rintro ⟨hnot12, hnot21⟩
    obtain ⟨h12, -⟩ := (not_noticed_iff t1 t2).1 hnot12
    obtain ⟨h21, -⟩ := (not_noticed_iff t2 t1).1 hnot21
    exact ⟨⟨h12, h21⟩, (h12.not_noticed_iff h21).1 hnot12, (h21.not_noticed_iff h12).1 hnot21⟩
  · rintro ⟨⟨h12, h21⟩, h1, h2⟩
    exact ⟨(h12.not_noticed_iff h21).2 h1, (h21.not_noticed_iff h12).2 h2⟩

end CodesSim.Config
