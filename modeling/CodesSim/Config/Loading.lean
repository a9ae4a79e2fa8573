import CodesSim.Config.Decimal
import CodesSim.Config.Names
import CodesSim.Lib.Outcome

/-!
# What is loaded

The result of `configuration_get_lpgroups` against what the section says.

* `addEntries_read` is about one group: `readGroup` takes its first ten entries.
* `addGroups_read` says what the first pass has stored: each group of the listing, at its index
  there.
-/

namespace CodesSim.Config

open CodesMapping Function

/-! ### Sections with LP groups -/

/-- The entries of a group: keys with one value, one of which may be the repetitions. -/
structure GroupSection (children : List Entry) : Prop where
  single : ∀ e ∈ children, ∃ name v, e = .key name [v] ∧ NoNul name
  repetitions : (children.filter fun e => e.name == repetitionsKey).length ≤ 1

/-- The section `LPGROUPS`: groups, and possibly other entries. -/
def LpgroupsSection (sh : List Entry) : Prop :=
  ∀ name children, .subsection name children ∈ sh → NoNul name ∧ GroupSection children

/-! ### What is read -/

/-- The value of the first key of a name. -/
def valueOf (children : List Entry) (name : CStr) : CStr :=
  match findKey children name with
  | some [v] => v
  | _ => []

/-- The number that is read for a key. -/
def readNumber (children : List Entry) (name : CStr) : ℤ :=
  wrapInt (strtol ((valueOf children name).take 255)).1

/-- The entry is an LP type. -/
def isLptype (e : Entry) : Bool := e.name != repetitionsKey

/-- The LP type that is read for a key. -/
def readType (children : List Entry) (e : Entry) : LoadedType :=
  ⟨(splitAnno e.name).1, (splitAnno e.name).2, readNumber children e.name⟩

/-- The repetitions that are read from entries. -/
def readReps (children es : List Entry) (r : ℤ) : ℤ :=
  es.foldl (fun r e => if e.name = repetitionsKey then readNumber children e.name else r) r

/-- What is read of a group: its first ten entries. -/
def readGroup (name : CStr) (children : List Entry) : LoadedGroup :=
  ⟨name, readReps children (children.take 10) 1,
    ((children.take 10).filter isLptype).map (readType children)⟩

/-- The value of a key of the entries is taken. -/
def Accepted (children es : List Entry) : Prop :=
  ∀ e ∈ es, checkedStrtol ((valueOf children e.name).take 255) = some (readNumber children e.name)

variable {children : List Entry}

variable {e : Entry}

theorem GroupSection.findKey (h : GroupSection children)
    (he : e ∈ children) : ∃ e' ∈ children, e'.name = e.name ∧
      e' = .key e.name [valueOf children e.name] ∧
        findChild children e.name = some e' := by
  have hsome : (findChild children e.name).isSome = true :=
    List.find?_isSome.2 ⟨e, he, beq_self_eq_true _⟩
  obtain ⟨e', he'⟩ := Option.isSome_iff_exists.1 hsome
  have hfind : (children.find? fun e'' => e''.name == e.name) = some e' := he'
  have hbeq := List.find?_some hfind
  have hname : e'.name = e.name := eq_of_beq hbeq
  have hmem := List.mem_of_find?_eq_some hfind
  obtain ⟨name, v, rfl, -⟩ := h.single e' hmem
  obtain rfl : name = e.name := hname
  refine ⟨_, hmem, rfl, ?_, he'⟩
  rw [valueOf, Config.findKey, he']

theorem GroupSection.getKey (h : GroupSection children) (he : e ∈ children) :
    getKey children e.name 256 = .ok ((valueOf children e.name).take 255) := by
  obtain ⟨e', -, -, hkey, hfind⟩ := h.findKey he
  rw [hkey] at hfind
  rw [Config.getKey, Config.findKey, hfind]

/-! ### The first pass -/

/-- What reading entries of a group does. -/
structure EntriesRead (children es : List Entry) (st : Load) (g : GroupSlot) (st' : Load)
    (g' : GroupSlot) : Prop where
  wf : st'.Wf
  grows : st.Grows st'
  groups : st'.groupNames = st.groupNames ∧ st'.lpgroups = st.lpgroups ∧
    st'.lpgroupsCount = st.lpgroupsCount
  typesIn : g'.TypesIn st'
  nameOffset : g'.nameOffset = g.nameOffset
  accepted : Accepted children es
  repetitions : g'.repetitions = readReps children es g.repetitions
  lptypes : g'.lptypes.map (TypeSlot.loaded st'.lpNames st'.annoNames) =
    g.lptypes.map (TypeSlot.loaded st.lpNames st.annoNames) ++
      (es.filter isLptype).map (readType children)

variable {name : CStr}

theorem readNumber_of_checkedStrtol {k : ℤ}
    (h : checkedStrtol ((valueOf children name).take 255) = some k) :
    k = readNumber children name := by
  unfold checkedStrtol at h
  split_ifs at h
  exact (Option.some.inj h).symm

variable {g : GroupSlot} {r : Load × GroupSlot}

variable {st : Load}

theorem addLptype_read (hname : NoNul name) (hst : st.Wf) (hg : g.TypesIn st)
    (hdata : st.data = (valueOf children name).take 255) (h : addLptype name st g = .ok r) :
    r.1.Wf ∧ st.Grows r.1 ∧ (r.1.groupNames = st.groupNames ∧ r.1.lpgroups = st.lpgroups ∧
      r.1.lpgroupsCount = st.lpgroupsCount) ∧ r.2.TypesIn r.1 ∧ r.2.nameOffset = g.nameOffset ∧
      checkedStrtol ((valueOf children name).take 255) = some (readNumber children name) ∧
      r.2.repetitions = g.repetitions ∧
      r.2.lptypes.map (TypeSlot.loaded r.1.lpNames r.1.annoNames) =
        g.lptypes.map (TypeSlot.loaded st.lpNames st.annoNames) ++
          [⟨(splitAnno name).1, (splitAnno name).2, readNumber children name⟩] := by
  obtain ⟨hbase, hanno⟩ := noNul_splitAnno hname
  obtain ⟨hlp, hlpGrows, hlpLt, hlpAt⟩ := checkAddUniqStr_spec hst.lpNames hbase
  obtain ⟨hnames, hnamesGrows, hoff, hoffAt⟩ := addAnno_spec hst.annoNames hanno
  simp only [addLptype] at h
  generalize addAnno st.annoNames (splitAnno name).2 = a at *
  obtain ⟨off, names⟩ := a
  cases hannos : checkAddLpTypeAnno ((checkAddUniqStr st.lpNames (splitAnno name).1).2.offsetAt
      (checkAddUniqStr st.lpNames (splitAnno name).1).1) off st.lpannos with
  | error e => rw [hannos] at h; cases h
  | ok lpannos =>
    rw [hannos] at h
    cases hcount : checkedStrtol st.data with
    | none => rw [hcount] at h; cases h
    | some count =>
      rw [hcount] at h
      obtain rfl := Except.ok.inj h
      rw [hdata] at hcount
      obtain rfl := readNumber_of_checkedStrtol hcount
      have hgrows : st.Grows { st with
          lpNames := (checkAddUniqStr st.lpNames (splitAnno name).1).2
          annoNames := names, lpannos := lpannos } := ⟨.refl _, hlpGrows, hnamesGrows⟩
      obtain ⟨hin, hloaded⟩ := hg.grows hst hgrows
      refine ⟨⟨hst.groupNames, hlp, hnames⟩, hgrows, ⟨rfl, rfl, rfl⟩, fun t ht => ?_, rfl, hcount,
        rfl, ?_⟩
      · rcases List.mem_append.1 ht with hold | hnew
        · exact hin t hold
        · rw [List.mem_singleton.1 hnew]
          exact ⟨hlpLt, hoff⟩
      · rw [List.map_append, hloaded, List.map_singleton]
        congr 2
        rw [TypeSlot.loaded, LoadedType.mk.injEq]
        exact ⟨hlpAt, hoffAt, rfl⟩

/-- **One entry of a group.** -/
theorem addEntry_read (hch : GroupSection children) (he : e ∈ children) (hst : st.Wf)
    (hg : g.TypesIn st) (h : addEntry children ⟨e.name, e.type⟩ st g = .ok r) :
    EntriesRead children [e] st g r.1 r.2 := by
  have htype : e.type = .key := by
    obtain ⟨name, v, rfl, -⟩ := hch.single e he
    rfl
  have hname : NoNul e.name := by
    obtain ⟨name, v, rfl, hname⟩ := hch.single e he
    exact hname
  simp only [addEntry, htype, if_true, hch.getKey he] at h
  by_cases hreps : e.name = repetitionsKey
  · rw [if_pos hreps] at h
    have hnot : isLptype e = false := by rw [isLptype, hreps]; exact bne_self_eq_false _
    cases hcount : checkedStrtol ((valueOf children e.name).take 255) with
    | none => rw [hcount] at h; cases h
    | some count =>
      rw [hcount] at h
      obtain rfl := Except.ok.inj h
      obtain rfl := readNumber_of_checkedStrtol hcount
      refine ⟨⟨hst.groupNames, hst.lpNames, hst.annoNames⟩, ⟨.refl _, .refl _, .refl _⟩,
        ⟨rfl, rfl, rfl⟩, hg, rfl, ?_, ?_, ?_⟩
      · intro e' he'
        rw [List.mem_singleton.1 he']
        exact hcount
      · rw [readReps, List.foldl_cons, if_pos hreps]
        rfl
      · rw [List.filter_cons_of_neg (by rw [hnot]; exact Bool.false_ne_true)]
        exact (List.append_nil _).symm
  · rw [if_neg hreps] at h
    have htype : isLptype e = true := bne_iff_ne.2 hreps
    have hst' : Load.Wf { st with data := (valueOf children e.name).take 255 } :=
      ⟨hst.groupNames, hst.lpNames, hst.annoNames⟩
    obtain ⟨hwf, hgrows, hgroups, hin, hoffset, haccepted, hr, htypes⟩ :=
      addLptype_read hname hst' hg rfl h
    refine ⟨hwf, ⟨hgrows.groupNames, hgrows.lpNames, hgrows.annoNames⟩, hgroups, hin,
      hoffset, ?_, ?_, ?_⟩
    · intro e' he'
      rw [List.mem_singleton.1 he']
      exact haccepted
    · rw [hr, readReps, List.foldl_cons, if_neg hreps]
      rfl
    · rw [htypes, List.filter_cons_of_pos htype]
      rfl

/-- **The entries of a group**, one after the other. -/
theorem addEntries_read (hch : GroupSection children) {es : List Entry}
    (hes : ∀ e ∈ es, e ∈ children) (hst : st.Wf)
    (hg : g.TypesIn st) (h : addEntries children (es.map fun e => ⟨e.name, e.type⟩) st g = .ok r) :
    EntriesRead children es st g r.1 r.2 := by
  induction es generalizing st g with
  | nil =>
    obtain rfl := Except.ok.inj h
    exact ⟨hst, .refl _, ⟨rfl, rfl, rfl⟩, hg, rfl, fun e he => absurd he List.not_mem_nil, rfl,
      (List.append_nil _).symm⟩
  | cons e es ih =>
    simp only [List.map_cons, addEntries] at h
    cases hone : addEntry children ⟨e.name, e.type⟩ st g with
    | error err => rw [hone] at h; cases h
    | ok r₁ =>
      rw [hone] at h
      have h₁ := addEntry_read hch (hes e List.mem_cons_self) hst hg hone
      have h₂ := ih (fun e' he' => hes e' (List.mem_cons_of_mem _ he')) h₁.wf h₁.typesIn h
      refine ⟨h₂.wf, h₁.grows.trans h₂.grows, ?_, h₂.typesIn, h₂.nameOffset.trans h₁.nameOffset, ?_,
        ?_, ?_⟩
      · obtain ⟨h1, h2, h3⟩ := h₁.groups
        obtain ⟨h1', h2', h3'⟩ := h₂.groups
        exact ⟨h1'.trans h1, h2'.trans h2, h3'.trans h3⟩
      · intro e' he'
        rcases List.mem_cons.1 he' with rfl | hrest
        · exact h₁.accepted _ List.mem_cons_self
        · exact h₂.accepted _ hrest
      · rw [h₂.repetitions, h₁.repetitions]
        rfl
      · rw [h₂.lptypes, h₁.lptypes, List.append_assoc, ← List.map_append, ← List.filter_append]
        rfl

/-! ### The groups -/

theorem openSection_mem {sh : List Entry}
    (h : .subsection name children ∈ sh) : ∃ name' children', openSection sh name = some children' ∧
      .subsection name' children' ∈ sh ∧ openSection sh name' = some children' ∧
        strcasecmp name' name = true := by
  induction sh with
  | nil => exact absurd h List.not_mem_nil
  | cons e es ih =>
    cases e with
    | key keyName values =>
      have hrest := (List.mem_cons.1 h).resolve_left (by simp)
      obtain ⟨name', children', hopen, hmem, hself⟩ := ih hrest
      exact ⟨name', children', hopen, List.mem_cons_of_mem _ hmem, hself⟩
    | subsection first children₁ =>
      by_cases hcase : strcasecmp first name = true
      · exact ⟨first, children₁, if_pos hcase, List.mem_cons_self,
          if_pos (strcasecmp_self _), hcase⟩
      · have hrest : .subsection name children ∈ es := by
          rcases List.mem_cons.1 h with heq | hrest
          · obtain ⟨rfl, -⟩ := Entry.subsection.inj heq
            exact absurd (strcasecmp_self _) hcase
          · exact hrest
        obtain ⟨name', children', hopen, hmem, hself, hsame⟩ := ih hrest
        have hcase' : ¬strcasecmp first name' = true := fun h => hcase (strcasecmp_trans h hsame)
        exact ⟨name', children', (if_neg hcase).trans hopen, List.mem_cons_of_mem _ hmem,
          (if_neg hcase').trans hself, hsame⟩

/-- What the first pass has stored after the beginning of the listing. -/
structure GroupsRead (sh pre : List Entry) (st : Load) : Prop where
  wf : st.Wf
  count : st.lpgroupsCount = (pre.filter Entry.isSection).length
  group : ∀ (j : ℕ) name children, pre[j]? = some (.subsection name children) →
    ∃ children', openSection sh name = some children' ∧
      Accepted children' (children'.take 10) ∧ (st.lpgroups j).TypesIn st ∧
        (st.lpgroups j).nameOffset < st.groupNames.buf.length ∧
          (st.lpgroups j).loaded st = readGroup name children'
  other : ∀ j : ℕ, (∀ name children, pre[j]? ≠ some (.subsection name children)) →
    st.lpgroups j = ⟨0, 0, []⟩

theorem GroupSlot.loaded_grows {st' : Load} (hst : st.Wf) (hgrows : st.Grows st')
    (hin : g.TypesIn st) (hname : g.nameOffset < st.groupNames.buf.length) :
    g.TypesIn st' ∧ g.nameOffset < st'.groupNames.buf.length ∧ g.loaded st' = g.loaded st := by
  obtain ⟨hin', htypes⟩ := hin.grows hst hgrows
  refine ⟨hin', hgrows.groupNames.lt hname, ?_⟩
  rw [GroupSlot.loaded, GroupSlot.loaded, htypes, hgrows.groupNames.cstrAt hst.groupNames hname]

theorem GroupsRead.skip {sh pre : List Entry} (h : GroupsRead sh pre st)
    (he : e.isSection = false) : GroupsRead sh (pre ++ [e]) st := by
  have hget : ∀ (j : ℕ) name children,
      (pre ++ [e])[j]? = some (Entry.subsection name children) ↔
        pre[j]? = some (.subsection name children) := fun j name children => by
    rw [List.getElem?_append]
    split_ifs with hj
    · rfl
    · have hnone : pre[j]? = none := List.getElem?_eq_none (by omega)
      rw [hnone]
      refine iff_of_false (fun hsome => ?_) (by simp)
      obtain rfl := List.mem_singleton.1 (List.mem_of_getElem? hsome)
      cases he
  refine ⟨h.wf, ?_, fun j name children hj => h.group j name children ((hget j name children).1 hj),
    fun j hj => h.other j fun name children hpre =>
    hj name children ((hget j name children).2 hpre)⟩
  rw [h.count, List.filter_append, List.filter_cons_of_neg (by rw [he]; exact Bool.false_ne_true)]
  rw [List.filter_nil, List.append_nil]

/-- **A group** is stored at its index in the listing. -/
theorem GroupsRead.add {root sh pre : List Entry} {st' : Load} (h : GroupsRead sh pre st)
    (hsh : LpgroupsSection sh)
    (hmem : .subsection name children ∈ sh)
    (hadd : addGroup root sh pre.length name st = .ok st') :
    GroupsRead sh (pre ++ [.subsection name children]) st' := by
  obtain ⟨name', children', hopen, hmem', -, -⟩ := openSection_mem hmem
  have hname := (hsh name children hmem).1
  have hch := (hsh name' children' hmem').2
  obtain ⟨hwf, hgrows, hlt, hat⟩ := checkAddUniqStr_spec h.wf.groupNames hname
  simp only [addGroup, hopen, Option.getD_some] at hadd
  generalize checkAddUniqStr st.groupNames name = pos at *
  split_ifs at hadd
  cases hentries : addEntries children' (listSection children' 10) st
      ⟨pos.2.offsetAt pos.1, 1, []⟩ with
  | error e => rw [hentries] at hadd; cases hadd
  | ok r =>
    rw [hentries] at hadd
    have hlisted : addEntries children' ((children'.take 10).map fun e => ⟨e.name, e.type⟩) st
        ⟨pos.2.offsetAt pos.1, 1, []⟩ = .ok r := hentries
    have hread := addEntries_read hch (fun e he => List.mem_of_mem_take he) h.wf
      (fun t ht => absurd ht List.not_mem_nil) hlisted
    obtain ⟨st₁, g⟩ := r
    obtain rfl := Except.ok.inj hadd
    obtain ⟨-, hgroups, hcount⟩ : st₁.groupNames = st.groupNames ∧ st₁.lpgroups = st.lpgroups ∧
      st₁.lpgroupsCount = st.lpgroupsCount := hread.groups
    have hstep : st.Grows { st₁ with
        groupNames := pos.2
        lpgroups := update st₁.lpgroups pre.length g
        lpgroupsCount := st₁.lpgroupsCount + 1 } :=
      ⟨hgrows, hread.grows.lpNames, hread.grows.annoNames⟩
    have hlast : ∀ j, j ≠ pre.length → ∀ x : Entry, (pre ++ [x])[j]? = pre[j]? := fun j hj x => by
      rw [List.getElem?_append]
      split_ifs with hlt
      · rfl
      · rw [List.getElem?_eq_none (by simp; omega), List.getElem?_eq_none (by omega)]
    refine ⟨⟨hwf, hread.wf.lpNames, hread.wf.annoNames⟩, ?_, fun j name₁ children₁ hj => ?_,
      fun j hj => ?_⟩
    · simp only [List.filter_append, List.length_append]
      rw [← h.count, hcount]
      rfl
    · by_cases hself : j = pre.length
      · subst hself
        rw [List.getElem?_concat_length] at hj
        obtain ⟨rfl, rfl⟩ := Entry.subsection.inj (Option.some.inj hj)
        simp only [update_self]
        refine ⟨children', hopen, hread.accepted, hread.typesIn, ?_, ?_⟩
        · rw [hread.nameOffset]
          exact hlt
        · rw [GroupSlot.loaded, readGroup, LoadedGroup.mk.injEq]
          refine ⟨?_, hread.repetitions, ?_⟩
          · rw [hread.nameOffset]
            exact hat
          · exact hread.lptypes
      · rw [hlast j hself] at hj
        obtain ⟨children₂, hopen₂, haccepted, hin, hoffset, hloaded⟩ := h.group j name₁ children₁ hj
        simp only [update_of_ne hself, hgroups]
        obtain ⟨hin', hoffset', hloaded'⟩ := GroupSlot.loaded_grows h.wf hstep hin hoffset
        exact ⟨children₂, hopen₂, haccepted, hin', hoffset', hloaded'.trans hloaded⟩
    · have hself : j ≠ pre.length := fun heq => by
        subst heq
        exact hj name children List.getElem?_concat_length
      simp only [update_of_ne hself, hgroups]
      exact h.other j fun name₁ children₁ hpre => hj name₁ children₁ ((hlast j hself _).trans hpre)

/-- **The first pass.** -/
theorem addGroups_read {root sh : List Entry} (hsh : LpgroupsSection sh) {pre es : List Entry}
    (hes : ∀ e ∈ es, e ∈ sh) {st' : Load} (h : GroupsRead sh pre st)
    (hadd : addGroups root sh pre.length (es.map fun e => ⟨e.name, e.type⟩) st = .ok st') :
    GroupsRead sh (pre ++ es) st' := by
  induction es generalizing pre st with
  | nil =>
    obtain rfl := Except.ok.inj hadd
    rwa [List.append_nil]
  | cons e es ih =>
    have hrest : ∀ e' ∈ es, e' ∈ sh := fun e' he' => hes e' (List.mem_cons_of_mem _ he')
    have hlen : (pre ++ [e]).length = pre.length + 1 := by simp
    rw [List.append_cons]
    cases e with
    | key name values =>
      have htype : (Entry.key name values).type ≠ .subsection := by
        unfold Entry.type
        simp only
        split_ifs <;> decide
      simp only [List.map_cons, addGroups, if_neg htype] at hadd
      exact ih hrest (h.skip rfl) (by rwa [hlen])
    | subsection name children =>
      have htype : (Entry.subsection name children).type = .subsection := rfl
      simp only [List.map_cons, addGroups, if_pos htype] at hadd
      cases hone : addGroup root sh pre.length name st with
      | error err => simp only [Entry.name, hone] at hadd; cases hadd
      | ok st₁ =>
        simp only [Entry.name, hone] at hadd
        exact ih hrest (h.add hsh (hes _ List.mem_cons_self) hone) (by rwa [hlen])

theorem groupsRead_start (sh : List Entry) (data : CStr) : GroupsRead sh [] (.start data) :=
  ⟨Load.start_wf data, rfl, fun j name children hj => by simp at hj, fun _ _ => rfl⟩

end CodesSim.Config
