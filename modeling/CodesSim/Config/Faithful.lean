import CodesSim.Config.Loading

/-!
# Faithful loading

Which sections `LPGROUPS` are loaded as they are written.

* `GroupFits` is about one group: nothing is lost behind its tenth entry, and each number is written
  with at most 255 characters, fits into an `int` and is that of the first key of its name.
* `LpgroupsFit` is about the section: the groups come first, there are at most ten, and groups whose
  names differ in case only say the same.
-/

namespace CodesSim.Config

open CodesMapping

/-! ### What is written -/

/-- The number of a key. -/
def Entry.number : Entry → Option ℤ
  | .key _ [v] => decimal v
  | _ => none

/-- A group as it is written; what is no number is `none`. -/
structure WrittenGroup where
  name : CStr
  repetitions : Option ℤ
  lptypes : List ((CStr × Option CStr) × Option ℤ)

/-- The repetitions of a group; without a key there is one. -/
def writtenReps (children : List Entry) : Option ℤ :=
  match findChild children repetitionsKey with
  | none => some 1
  | some e => e.number

/-- The LP types of a group, in order. -/
def writtenTypes (children : List Entry) : List ((CStr × Option CStr) × Option ℤ) :=
  (children.filter isLptype).map fun e => (splitAnno e.name, e.number)

/-- A group as it is written. -/
def Entry.written : Entry → WrittenGroup
  | .subsection name children => ⟨name, writtenReps children, writtenTypes children⟩
  | .key name _ => ⟨name, none, []⟩

/-- A group as it was loaded. -/
def LoadedGroup.asWritten (g : LoadedGroup) : WrittenGroup :=
  ⟨g.name, some g.repetitions, g.lptypes.map fun t => ((t.name, t.anno), some t.count)⟩

/-- The groups of the section were loaded as they are written, and all numbers are positive. -/
structure Faithful (sh : List Entry) (conf : LoadedConf) : Prop where
  groups : conf.lpgroups.map LoadedGroup.asWritten = (sh.filter Entry.isSection).map Entry.written
  positive : ∀ g ∈ conf.lpgroups, 0 < g.repetitions ∧ ∀ t ∈ g.lptypes, 0 < t.count

/-- A group can be loaded as it is written. -/
structure GroupFits (children : List Entry) : Prop where
  listed : ∀ e ∈ children.drop 10, e.name = repetitionsKey ∧ e.number = some 1
  numbers : ∀ e ∈ children.take 10, (valueOf children e.name).length ≤ 255 ∧
    ∃ n < 2 ^ 31, decimal (valueOf children e.name) = some n ∧ e.number = some n

/-- The section can be loaded as it is written. -/
structure LpgroupsFit (sh : List Entry) : Prop where
  front : ∃ groups rest, sh = groups ++ rest ∧ groups.length ≤ 10 ∧
    (∀ e ∈ groups, e.isSection = true) ∧ ∀ e ∈ rest, e.isSection = false
  groups : ∀ name children, .subsection name children ∈ sh → ∃ children',
    openSection sh name = some children' ∧ GroupFits children' ∧
      writtenReps children' = writtenReps children ∧ writtenTypes children' = writtenTypes children

/-! ### One group -/

section Group

variable {children : List Entry}

variable {e : Entry}

theorem findChild_take {k : ℕ} (he : e ∈ children.take k) :
    findChild children e.name = findChild (children.take k) e.name := by
  have hsome : ((children.take k).find? fun e' => e'.name == e.name).isSome = true :=
    List.find?_isSome.2 ⟨e, he, beq_self_eq_true _⟩
  obtain ⟨e', he'⟩ := Option.isSome_iff_exists.1 hsome
  unfold findChild
  conv_lhs => rw [← List.take_append_drop k children]
  rw [List.find?_append, he', Option.some_or]

theorem GroupSection.repetitions_eq (h : GroupSection children) {e' : Entry} (he : e ∈ children)
    (he' : e' ∈ children) (hname : e.name = repetitionsKey) (hname' : e'.name = repetitionsKey) :
    e = e' := by
  have hmem : e ∈ children.filter fun e => e.name == repetitionsKey :=
    List.mem_filter.2 ⟨he, beq_iff_eq.2 hname⟩
  have hmem' : e' ∈ children.filter fun e => e.name == repetitionsKey :=
    List.mem_filter.2 ⟨he', beq_iff_eq.2 hname'⟩
  have hle := h.repetitions
  generalize children.filter (fun e => e.name == repetitionsKey) = found at *
  match found with
  | [] => exact absurd hmem List.not_mem_nil
  | [x] => rw [List.mem_singleton.1 hmem, List.mem_singleton.1 hmem']
  | x :: y :: xs => simp at hle

theorem GroupSection.repetitions_take (h : GroupSection children)
    (he : e ∈ children.drop 10) (hname : e.name = repetitionsKey) :
    ∀ e' ∈ children.take 10, e'.name ≠ repetitionsKey := by
  intro e' he' hname'
  have hle := h.repetitions
  rw [← List.take_append_drop 10 children, List.filter_append, List.length_append] at hle
  have hfront : 0 < ((children.take 10).filter fun e => e.name == repetitionsKey).length :=
    List.length_pos_of_mem (List.mem_filter.2 ⟨he', beq_iff_eq.2 hname'⟩)
  have hback : 0 < ((children.drop 10).filter fun e => e.name == repetitionsKey).length :=
    List.length_pos_of_mem (List.mem_filter.2 ⟨he, beq_iff_eq.2 hname⟩)
  omega

theorem GroupSection.writtenReps_eq (h : GroupSection children) (he : e ∈ children)
    (hname : e.name = repetitionsKey) : writtenReps children = e.number := by
  obtain ⟨e', hmem, hname', -, hfind⟩ := h.findKey he
  rw [hname] at hfind
  rw [writtenReps, hfind, h.repetitions_eq hmem he (hname'.trans hname) hname]

theorem readReps_of_mem {es : List Entry} (he : e ∈ es) (hname : e.name = repetitionsKey)
    (r : ℤ) : readReps children es r = readNumber children repetitionsKey := by
  have hsame : ∀ (es : List Entry) r, r = readNumber children repetitionsKey →
      readReps children es r = r := fun es => by
    induction es with
    | nil => exact fun _ _ => rfl
    | cons e es ih =>
      intro r hr
      rw [readReps, List.foldl_cons]
      split_ifs with hreps
      · rw [hreps, ← hr]
        exact ih r hr
      · exact ih r hr
  induction es generalizing r with
  | nil => exact absurd he List.not_mem_nil
  | cons e' es ih =>
    rw [readReps, List.foldl_cons]
    rcases List.mem_cons.1 he with rfl | hrest
    · rw [if_pos hname, hname]
      exact hsame es _ rfl
    · exact ih hrest _

theorem readReps_of_not {es : List Entry} (h : ∀ e ∈ es, e.name ≠ repetitionsKey) (r : ℤ) :
    readReps children es r = r := by
  induction es with
  | nil => rfl
  | cons e es ih =>
    rw [readReps, List.foldl_cons, if_neg (h e List.mem_cons_self)]
    exact ih fun e' he' => h e' (List.mem_cons_of_mem _ he')

theorem readTypes_iff (children : List Entry) :
    ((children.take 10).filter isLptype).map
        (fun e => (splitAnno e.name, some (readNumber children e.name))) = writtenTypes children ↔
      (∀ e ∈ children.drop 10, e.name = repetitionsKey) ∧
        ∀ e ∈ children.take 10, e.name ≠ repetitionsKey →
          e.number = some (readNumber children e.name) := by
  have hsplit : children.filter isLptype =
      (children.take 10).filter isLptype ++ (children.drop 10).filter isLptype := by
    rw [← List.filter_append, List.take_append_drop]
  have hnone : (children.drop 10).filter isLptype = [] ↔
      ∀ e ∈ children.drop 10, e.name = repetitionsKey := by
    rw [List.filter_eq_nil_iff]
    exact forall₂_congr fun e _ => by rw [isLptype, bne_iff_ne, not_not]
  rw [writtenTypes, hsplit, List.map_append, ← hnone]
  constructor
  · intro h
    have hlen := congrArg List.length h
    simp only [List.length_append, List.length_map] at hlen
    have hnil : (children.drop 10).filter isLptype = [] := List.length_eq_zero_iff.1 (by omega)
    refine ⟨hnil, fun e he hreps => ?_⟩
    rw [hnil, List.map_nil, List.append_nil] at h
    have hmem : e ∈ (children.take 10).filter isLptype :=
      List.mem_filter.2 ⟨he, bne_iff_ne.2 hreps⟩
    have hpair := List.map_inj_left.1 h e hmem
    exact (Prod.mk.inj hpair).2.symm
  · rintro ⟨hnil, hnumbers⟩
    rw [hnil, List.map_nil, List.append_nil]
    refine List.map_congr_left fun e he => ?_
    obtain ⟨hmem, htype⟩ := List.mem_filter.1 he
    rw [hnumbers e hmem (bne_iff_ne.1 htype)]

/-- **What is read of a group is what is written** if nothing is lost and all numbers agree. -/
theorem readGroup_iff (h : GroupSection children) (name : CStr) :
    (readGroup name children).asWritten = (Entry.subsection name children).written ↔
      (∀ e ∈ children.drop 10, e.name = repetitionsKey ∧ e.number = some 1) ∧
        ∀ e ∈ children.take 10, e.number = some (readNumber children e.name) := by
  have htypes := readTypes_iff children
  simp only [readGroup, LoadedGroup.asWritten, Entry.written, WrittenGroup.mk.injEq, true_and,
    List.map_map]
  have hcomp : (((children.take 10).filter isLptype).map
      ((fun t : LoadedType => ((t.name, t.anno), some t.count)) ∘ readType children)) =
      ((children.take 10).filter isLptype).map
        (fun e => (splitAnno e.name, some (readNumber children e.name))) := rfl
  rw [hcomp, htypes]
  have hback : ∀ e ∈ children.drop 10, e ∈ children := fun e he => List.mem_of_mem_drop he
  have hfront : ∀ e ∈ children.take 10, e ∈ children := fun e he => List.mem_of_mem_take he
  constructor
  · rintro ⟨hreps, hlost, hnumbers⟩
    refine ⟨fun e he => ⟨hlost e he, ?_⟩, fun e he => ?_⟩
    · rw [← h.writtenReps_eq (hback e he) (hlost e he), ← hreps,
        readReps_of_not (h.repetitions_take he (hlost e he))]
    · by_cases hname : e.name = repetitionsKey
      · rw [← h.writtenReps_eq (hfront e he) hname, ← hreps, readReps_of_mem he hname, hname]
      · exact hnumbers e he hname
  · rintro ⟨hlost, hnumbers⟩
    refine ⟨?_, fun e he => (hlost e he).1, fun e he _ => hnumbers e he⟩
    by_cases hex : ∃ e ∈ children.take 10, e.name = repetitionsKey
    · obtain ⟨e, he, hname⟩ := hex
      rw [readReps_of_mem he hname, h.writtenReps_eq (hfront e he) hname, hnumbers e he, hname]
    · push Not at hex
      rw [readReps_of_not hex]
      cases hdrop : children.drop 10 with
      | nil =>
        -- there is no key for repetitions at all
        have hnone : findChild children repetitionsKey = none := by
          refine List.find?_eq_none.2 fun e he hname => ?_
          rw [← List.take_append_drop 10 children, hdrop, List.append_nil] at he
          exact hex e he (beq_iff_eq.1 hname)
        rw [writtenReps, hnone]
      | cons e es =>
        have he : e ∈ children.drop 10 := hdrop ▸ List.mem_cons_self
        rw [h.writtenReps_eq (hback e he) (hlost e he).1, (hlost e he).2]

theorem numbers_iff (h : GroupSection children) (haccepted : Accepted children (children.take 10)) :
    (∀ e ∈ children.take 10, e.number = some (readNumber children e.name)) ↔
      ∀ e ∈ children.take 10, (valueOf children e.name).length ≤ 255 ∧
        ∃ n < 2 ^ 31, decimal (valueOf children e.name) = some n ∧ e.number = some n := by
  constructor
  · intro hnumbers e he
    obtain ⟨e', -, hname, hkey, hfind⟩ := h.findKey (List.mem_of_mem_take he)
    -- the first key of the name is among the first ten entries too
    have hmem : e' ∈ children.take 10 :=
      List.mem_of_find?_eq_some ((findChild_take he).symm.trans hfind)
    have hdecimal : decimal (valueOf children e.name) = some (readNumber children e.name) := by
      rw [← hname, ← hnumbers e' hmem, hname, hkey]
      rfl
    obtain ⟨hlen, n, hn, hint⟩ := (decimal_eq_read_iff (haccepted e he)).1 hdecimal
    refine ⟨hlen, n, hint, hn, ?_⟩
    rw [hnumbers e he, ← hdecimal, hn]
  · intro hfits e he
    obtain ⟨hlen, n, hint, hn, hnumber⟩ := hfits e he
    rw [hnumber, (checkedStrtol_of_decimal hlen hn hint (haccepted e he)).1]

theorem readGroup_fits_iff (h : GroupSection children)
    (haccepted : Accepted children (children.take 10)) (name : CStr) :
    (readGroup name children).asWritten = (Entry.subsection name children).written ↔
      GroupFits children := by
  rw [readGroup_iff h, numbers_iff h haccepted]
  exact ⟨fun hfits => ⟨hfits.1, hfits.2⟩, fun hfits => ⟨hfits.listed, hfits.numbers⟩⟩

theorem readGroup_positive (haccepted : Accepted children (children.take 10))
    (hfits : GroupFits children) (name : CStr) : 0 < (readGroup name children).repetitions ∧
      ∀ t ∈ (readGroup name children).lptypes, 0 < t.count := by
  have hpos : ∀ e ∈ children.take 10, 0 < readNumber children e.name := fun e he => by
    obtain ⟨hlen, n, hint, hn, -⟩ := hfits.numbers e he
    exact (checkedStrtol_of_decimal hlen hn hint (haccepted e he)).2
  constructor
  · by_cases hex : ∃ e ∈ children.take 10, e.name = repetitionsKey
    · obtain ⟨e, he, hname⟩ := hex
      have hreps := hpos e he
      rw [hname] at hreps
      rwa [readGroup, readReps_of_mem he hname]
    · push Not at hex
      rw [readGroup, readReps_of_not hex]
      exact Int.one_pos
  · intro t ht
    obtain ⟨e, he, rfl⟩ := List.mem_map.1 ht
    exact hpos e (List.mem_of_mem_filter he)

end Group

/-! ### The section -/

section Section

variable {root sh : List Entry} {sectionName data : CStr} {conf : LoadedConf}

/-- What was loaded is what the first pass has read of the first ten entries. -/
theorem lpgroups_read (hopen : openSection root sectionName = some sh) (hsh : LpgroupsSection sh)
    (h : configurationGetLpgroups root sectionName data = .ok conf) :
    ∃ st, GroupsRead sh (sh.take 10) st ∧ conf = st.finish := by
  simp only [configurationGetLpgroups, hopen] at h
  cases hadd : addGroups root sh 0 (listSection sh 10) (.start data) with
  | error e => rw [hadd] at h; cases h
  | ok st =>
    rw [hadd] at h
    have hlisted : addGroups root sh ([] : List Entry).length
        ((sh.take 10).map fun e => ⟨e.name, e.type⟩) (.start data) = .ok st := hadd
    have hread := addGroups_read hsh (fun e he => List.mem_of_mem_take he)
      (groupsRead_start sh data) hlisted
    exact ⟨st, hread, (Except.ok.inj h).symm⟩

theorem LpgroupsSection.group_open (hsh : LpgroupsSection sh) {name : CStr} {children : List Entry}
    (hmem : .subsection name children ∈ sh) : GroupSection children := (hsh name children hmem).2

variable {st : Load}

theorem GroupsRead.isSection_of_pos {pre : List Entry} (h : GroupsRead sh pre st) {j : ℕ}
    (hpos : 0 < ((st.lpgroups j).loaded st).repetitions) :
    ∃ name children, pre[j]? = some (.subsection name children) := by
  by_contra hnone
  push Not at hnone
  rw [h.other j hnone] at hpos
  exact absurd hpos (Int.lt_irrefl 0)

theorem front_of_positive (h : GroupsRead sh (sh.take 10) st)
    (hlen : st.lpgroupsCount = (sh.filter Entry.isSection).length)
    (hpos : ∀ j < st.lpgroupsCount, 0 < ((st.lpgroups j).loaded st).repetitions) :
    ∃ rest, sh = sh.take st.lpgroupsCount ++ rest ∧ st.lpgroupsCount ≤ 10 ∧
      sh.filter Entry.isSection = sh.take st.lpgroupsCount ∧
      (∀ e ∈ sh.take st.lpgroupsCount, e.isSection = true) ∧ ∀ e ∈ rest, e.isSection = false := by
  have hcount := h.count
  generalize st.lpgroupsCount = n at *
  have hle : n ≤ (sh.take 10).length := hcount ▸ List.length_filter_le _ _
  rw [List.length_take] at hle
  have hfront : ∀ e ∈ sh.take n, e.isSection = true := fun e he => by
    obtain ⟨j, hj, rfl⟩ := List.mem_iff_getElem.1 he
    rw [List.length_take] at hj
    obtain ⟨name, children, hget⟩ := h.isSection_of_pos (hpos j (by omega))
    rw [List.getElem?_take_of_lt (by omega)] at hget
    rw [List.getElem_take, (List.getElem?_eq_some_iff.1 hget).2]
    rfl
  have hsplit : sh.filter Entry.isSection = sh.take n ++ (sh.drop n).filter Entry.isSection := by
    conv_lhs => rw [← List.take_append_drop n sh, List.filter_append, List.filter_eq_self.2 hfront]
  have hrest : (sh.drop n).filter Entry.isSection = [] := by
    have hsum := congrArg List.length hsplit
    rw [List.length_append, List.length_take] at hsum
    exact List.length_eq_zero_iff.1 (by omega)
  refine ⟨sh.drop n, (List.take_append_drop n sh).symm, by omega, ?_, hfront, fun e he => ?_⟩
  · rw [hsplit, hrest, List.append_nil]
  · exact Bool.not_eq_true _ ▸ List.filter_eq_nil_iff.1 hrest e he

theorem map_range_eq_iff {α β : Type*} {f : ℕ → β} {g : α → β} {xs : List α} :
    (List.range xs.length).map f = xs.map g ↔ ∀ (j : ℕ) x, xs[j]? = some x → f j = g x := by
  constructor
  · intro heq j x hj
    obtain ⟨hlt, rfl⟩ := List.getElem?_eq_some_iff.1 hj
    have hget := congrArg (fun ys => ys[j]?) heq
    simpa [hlt] using hget
  · intro hall
    refine List.ext_getElem (by simp) fun j hj hj' => ?_
    rw [List.length_map] at hj'
    rw [List.getElem_map, List.getElem_map, List.getElem_range]
    exact hall j _ (List.getElem?_eq_getElem hj')

theorem asWritten_finish (st : Load) : st.finish.lpgroups.map LoadedGroup.asWritten =
    (List.range st.lpgroupsCount).map fun j => ((st.lpgroups j).loaded st).asWritten := by
  unfold Load.finish
  rw [List.map_map]
  rfl

theorem mem_finish {j : ℕ} (hj : j < st.lpgroupsCount) :
    (st.lpgroups j).loaded st ∈ st.finish.lpgroups :=
  List.mem_map.2 ⟨j, List.mem_range.2 hj, rfl⟩

/-- **Exactly the sections that fit are loaded as they are written.** -/
theorem lpgroups_faithful_iff (hopen : openSection root sectionName = some sh)
    (hsh : LpgroupsSection sh) (h : configurationGetLpgroups root sectionName data = .ok conf) :
    Faithful sh conf ↔ LpgroupsFit sh := by
  obtain ⟨st, hread, rfl⟩ := lpgroups_read hopen hsh h
  constructor
  · rintro ⟨hgroups, hpos⟩
    rw [asWritten_finish] at hgroups
    have hlen := congrArg List.length hgroups
    rw [List.length_map, List.length_map, List.length_range] at hlen
    obtain ⟨rest, hsplit, hten, hfilter, hfront, hrest⟩ :=
      front_of_positive hread hlen fun j hj => (hpos _ (mem_finish hj)).1
    rw [hlen, hfilter] at hgroups
    have heach := map_range_eq_iff.1 hgroups
    -- each section has an index before the end of the groups, and is read there
    have hindex : ∀ name children, .subsection name children ∈ sh → ∃ children',
        openSection sh name = some children' ∧ Accepted children' (children'.take 10) ∧
          (readGroup name children').asWritten = (Entry.subsection name children).written := by
      intro name children hmem
      have hmem' : Entry.subsection name children ∈ sh.take st.lpgroupsCount :=
        hfilter ▸ List.mem_filter.2 ⟨hmem, rfl⟩
      obtain ⟨j, hj⟩ := List.mem_iff_getElem?.1 hmem'
      have hlt := (List.getElem?_eq_some_iff.1 hj).1
      rw [List.length_take] at hlt
      have hget : (sh.take 10)[j]? = some (Entry.subsection name children) := by
        rw [List.getElem?_take_of_lt (by omega)] at hj ⊢
        exact hj
      obtain ⟨children', hopen', haccepted, -, -, hloaded⟩ := hread.group j name children hget
      exact ⟨children', hopen', haccepted, hloaded ▸ heach j _ hj⟩
    refine ⟨⟨_, rest, hsplit, ?_, hfront, hrest⟩, fun name children hmem => ?_⟩
    · exact (List.length_take_le _ _).trans hten
    · obtain ⟨children', hopen', haccepted, hsame⟩ := hindex name children hmem
      -- the section that is opened is a group of its own
      obtain ⟨name', opened, hname, hmem', hself, -⟩ := openSection_mem hmem
      obtain rfl := Option.some.inj (hname.symm.trans hopen')
      obtain ⟨children₂, hopen₂, -, hown⟩ := hindex name' opened hmem'
      obtain rfl := Option.some.inj (hself.symm.trans hopen₂)
      have hfits := (readGroup_fits_iff (hsh.group_open hmem') haccepted name').1 hown
      have hsame' := (readGroup_fits_iff (hsh.group_open hmem') haccepted name).2 hfits
      have hwritten := hsame'.symm.trans hsame
      simp only [Entry.written, WrittenGroup.mk.injEq, true_and] at hwritten
      exact ⟨opened, hopen', hfits, hwritten⟩
  · rintro ⟨⟨groups, rest, rfl, hten, hfront, hrest⟩, hgroups⟩
    have hfilter : (groups ++ rest).filter Entry.isSection = groups := by
      rw [List.filter_append, List.filter_eq_self.2 hfront, List.filter_eq_nil_iff.2 fun e he => by
        rw [hrest e he]; exact Bool.false_ne_true, List.append_nil]
    have hcount : st.lpgroupsCount = groups.length := by
      rw [hread.count, List.take_append, List.take_of_length_le hten, List.filter_append,
        List.filter_eq_self.2 hfront, List.filter_eq_nil_iff.2 fun e he => by
          rw [hrest e (List.mem_of_mem_take he)]; exact Bool.false_ne_true, List.append_nil]
    have heach : ∀ (j : ℕ) e, groups[j]? = some e →
        ((st.lpgroups j).loaded st).asWritten = e.written ∧
          0 < ((st.lpgroups j).loaded st).repetitions ∧
            ∀ t ∈ ((st.lpgroups j).loaded st).lptypes, 0 < t.count := by
      intro j e hj
      have hmem := List.mem_of_getElem? hj
      have hlt := (List.getElem?_eq_some_iff.1 hj).1
      cases e with
      | key name values => exact absurd (hfront _ hmem) Bool.false_ne_true
      | subsection name children =>
        have hget : ((groups ++ rest).take 10)[j]? = some (Entry.subsection name children) := by
          rw [List.getElem?_take_of_lt (by omega), List.getElem?_append_left hlt]
          exact hj
        obtain ⟨children', hopen', haccepted, -, -, hloaded⟩ := hread.group j name children hget
        obtain ⟨children₂, hopen₂, hfits, hreps, htypes⟩ :=
          hgroups name children (List.mem_append_left _ hmem)
        obtain rfl := Option.some.inj (hopen₂.symm.trans hopen')
        obtain ⟨name', opened, hname, hmem', -⟩ :=
          openSection_mem (List.mem_append_left rest hmem)
        obtain rfl := Option.some.inj (hname.symm.trans hopen')
        rw [hloaded]
        refine ⟨?_, readGroup_positive haccepted hfits name⟩
        rw [(readGroup_fits_iff (hsh.group_open hmem') haccepted name).2 hfits]
        simp only [Entry.written, hreps, htypes]
    refine ⟨?_, fun g hg => ?_⟩
    · rw [asWritten_finish, hfilter, hcount]
      exact map_range_eq_iff.2 fun j e hj => (heach j e hj).1
    · obtain ⟨j, hj, rfl⟩ := List.mem_map.1 hg
      have hlt : j < groups.length := hcount ▸ List.mem_range.1 hj
      exact (heach j _ (List.getElem?_eq_getElem hlt)).2

/-- A group with two LP types of which one has an annotation. -/
def sampleGroup : Entry :=
  .subsection "G" [.key repetitionsKey ["2"], .key "server@a" ["3"],
    .key "disk" ["1"]]

theorem sampleGroup_lpgroups (es : List Entry) (hes : ∀ e ∈ es, e.isSection = false) :
    LpgroupsSection (es ++ [sampleGroup]) := by
  intro name children hmem
  rcases List.mem_append.1 hmem with hother | hgroup
  · exact absurd (hes _ hother).symm Bool.false_ne_true
  · obtain ⟨rfl, rfl⟩ := Entry.subsection.inj (List.mem_singleton.1 hgroup)
    refine ⟨by decide, fun e he => ?_, by decide⟩
    simp only [List.mem_cons, List.not_mem_nil, or_false] at he
    rcases he with rfl | rfl | rfl
    all_goals exact ⟨_, _, rfl, by decide⟩

/-- The group alone is loaded as it is written. -/
theorem lpgroups_sample_fit : LpgroupsFit [sampleGroup] := by
  have hload : configurationGetLpgroups [.subsection "LPGROUPS" [sampleGroup]]
      "LPGROUPS" [] = .ok
        ⟨[⟨"G", 2, [⟨"server", some "a", 3⟩, ⟨"disk", none, 1⟩]⟩],
          [⟨"server", false, false, [("a", 1)]⟩,
            ⟨"disk", true, true, []⟩]⟩ := by
    decide
  exact (lpgroups_faithful_iff rfl (sampleGroup_lpgroups [] fun e he => absurd he List.not_mem_nil)
    hload).1 ⟨rfl, by decide⟩

/-- Behind another entry it is read back from a slot that was not written. -/
theorem lpgroups_not_faithful : ¬ ∀ (root sh : List Entry) (sectionName data : CStr)
    (conf : LoadedConf), openSection root sectionName = some sh → LpgroupsSection sh →
      configurationGetLpgroups root sectionName data = .ok conf → Faithful sh conf := by
  intro hall
  have hload : configurationGetLpgroups
      [.subsection "LPGROUPS" ([.key "note" ["1"]] ++ [sampleGroup])]
        "LPGROUPS" [] = .ok
          ⟨[⟨"G", 0, []⟩], [⟨"server", false, false, [("a", 1)]⟩,
            ⟨"disk", true, true, []⟩]⟩ := by
    decide
  have hfaithful := hall _ _ _ _ _ rfl (sampleGroup_lpgroups _ (by decide)) hload
  exact absurd (hfaithful.positive _ List.mem_cons_self).1 (by decide)

end Section

end CodesSim.Config
