import CodesSim.Config.LpGroups

/-!
# Offsets and names

While names are added to a buffer, the strings at the offsets given out stay what they are: the
buffer grows at its end only, behind a terminating zero.
-/

namespace CodesSim.Config

/-! ### Buffers -/

theorem cstrAt_add (buf s more : CStr) (hs : NoNul s) :
    cstrAt (buf ++ s ++ '\x00' :: more) buf.length = s := by
  have hall : ∀ c ∈ s, decide (c ≠ '\x00') = true := fun c hc =>
    decide_eq_true fun h => hs (h ▸ hc)
  rw [cstrAt, List.append_assoc, List.drop_left, List.takeWhile_append_of_pos hall,
    List.takeWhile_cons_of_neg (by decide), List.append_nil]

/-- Names in a buffer: each has its zero, and each offset is one of the buffer. -/
structure NameBuf.Wf (b : NameBuf) : Prop where
  ended : b.buf = [] ∨ ∃ names, b.buf = names ++ ['\x00']
  offsets : ∀ offset ∈ b.offsets, offset < b.buf.length

/-- A buffer has grown at its end. -/
def NameBuf.Grows (b b' : NameBuf) : Prop := ∃ more, b'.buf = b.buf ++ more

theorem NameBuf.Grows.refl (b : NameBuf) : b.Grows b := ⟨[], (List.append_nil _).symm⟩

theorem NameBuf.Grows.trans {b b' b'' : NameBuf} (h : b.Grows b') (h' : b'.Grows b'') :
    b.Grows b'' := by
  obtain ⟨more, h⟩ := h
  obtain ⟨more', h'⟩ := h'
  exact ⟨more ++ more', by rw [h', h, List.append_assoc]⟩

theorem NameBuf.Grows.lt {b b' : NameBuf} (h : b.Grows b') {offset : ℕ}
    (hoffset : offset < b.buf.length) : offset < b'.buf.length := by
  obtain ⟨more, h⟩ := h
  rw [h, List.length_append]
  omega

/-- **Strings stay.**  What is behind the last zero is not part of an earlier string. -/
theorem NameBuf.Grows.cstrAt {b b' : NameBuf} (h : b.Grows b') (hb : b.Wf) {offset : ℕ}
    (hoffset : offset < b.buf.length) : cstrAt b'.buf offset = cstrAt b.buf offset := by
  obtain ⟨more, h⟩ := h
  obtain hnil | ⟨names, hnames⟩ := hb.ended
  · rw [hnil] at hoffset
    exact absurd hoffset (Nat.not_lt_zero _)
  · rw [hnames, List.length_append, List.length_singleton] at hoffset
    have hle : offset ≤ names.length := by omega
    rw [h, hnames, Config.cstrAt, Config.cstrAt, List.append_assoc,
      List.drop_append_of_le_length hle, List.drop_append_of_le_length hle, List.singleton_append]
    -- both stop at the zero at the latest
    generalize names.drop offset = tail
    induction tail with
    | nil => simp
    | cons c tail ih =>
      simp only [List.cons_append, List.takeWhile_cons]
      split_ifs
      · rw [ih]
      · rfl

/-- **A name is added once**: it stands at its offset, and the buffer has grown at most. -/
theorem checkAddUniqStr_spec {b : NameBuf} (hb : b.Wf) {str : CStr} (hstr : NoNul str) :
    (checkAddUniqStr b str).2.Wf ∧ b.Grows (checkAddUniqStr b str).2 ∧
      (checkAddUniqStr b str).2.offsetAt (checkAddUniqStr b str).1 <
        (checkAddUniqStr b str).2.buf.length ∧
      cstrAt (checkAddUniqStr b str).2.buf
        ((checkAddUniqStr b str).2.offsetAt (checkAddUniqStr b str).1) = str := by
  unfold checkAddUniqStr
  cases hfind : b.offsets.findIdx? fun offset => cstrAt b.buf offset == str with
  | some i =>
    obtain ⟨hlt, heq, -⟩ := List.findIdx?_eq_some_iff_getElem.1 hfind
    have hat : b.offsetAt i = b.offsets[i] := by
      rw [NameBuf.offsetAt, List.getD_eq_getElem?_getD, List.getElem?_eq_getElem hlt]
      rfl
    refine ⟨hb, .refl b, ?_, ?_⟩
    · rw [hat]
      exact hb.offsets _ (List.getElem_mem hlt)
    · rw [hat]
      exact eq_of_beq heq
  | none =>
    have hlast : (b.offsets ++ [b.buf.length]).getD b.offsets.length 0 = b.buf.length := by
      rw [List.getD_eq_getElem?_getD, List.getElem?_concat_length]
      rfl
    refine ⟨⟨.inr ⟨b.buf ++ str, rfl⟩, fun offset hoffset => ?_⟩, ⟨str ++ ['\x00'], ?_⟩, ?_, ?_⟩
    · simp only [List.length_append, List.length_singleton]
      rcases List.mem_append.1 hoffset with hold | hnew
      · have := hb.offsets offset hold
        omega
      · rw [List.mem_singleton.1 hnew]
        omega
    · rw [List.append_assoc]
    · simp only [NameBuf.offsetAt, hlast, List.length_append, List.length_singleton]
      omega
    · simp only [NameBuf.offsetAt, hlast]
      exact cstrAt_add b.buf str [] hstr

theorem addAnno_spec {b : NameBuf} (hb : b.Wf) {anno : Option CStr}
    (hanno : ∀ s, anno = some s → NoNul s) :
    (addAnno b anno).2.Wf ∧ b.Grows (addAnno b anno).2 ∧
      ((addAnno b anno).1 = -1 ∨
        (0 ≤ (addAnno b anno).1 ∧ (addAnno b anno).1.toNat < (addAnno b anno).2.buf.length)) ∧
      annoAt (addAnno b anno).2 (addAnno b anno).1 = anno := by
  cases anno with
  | none => exact ⟨hb, .refl _, .inl rfl, if_pos rfl⟩
  | some s =>
    obtain ⟨hwf, hgrows, hlt, hat⟩ := checkAddUniqStr_spec hb (hanno s rfl)
    refine ⟨hwf, hgrows, .inr ⟨Int.natCast_nonneg _, ?_⟩, ?_⟩
    · rwa [addAnno, Int.toNat_natCast]
    · rw [addAnno, annoAt, if_neg (by omega), Int.toNat_natCast, hat]

theorem noNul_splitAnno {name : CStr} (h : NoNul name) :
    NoNul (splitAnno name).1 ∧ ∀ anno, (splitAnno name).2 = some anno → NoNul anno := by
  refine ⟨fun hmem => h ((List.takeWhile_sublist _).subset hmem), fun anno hanno hmem => ?_⟩
  unfold splitAnno at hanno
  cases hdrop : name.dropWhile (· ≠ '@') with
  | nil => rw [hdrop] at hanno; cases hanno
  | cons c rest =>
    rw [hdrop] at hanno
    obtain rfl := Option.some.inj hanno
    exact h ((List.dropWhile_sublist _).subset (hdrop ▸ List.mem_cons_of_mem _ hmem))

/-! ### Slots -/

/-- The offsets of a type are offsets of the buffers. -/
structure TypeSlot.In (lpNames annoNames : NameBuf) (t : TypeSlot) : Prop where
  name : t.nameOffset < lpNames.buf.length
  anno : t.annoOffset = -1 ∨ (0 ≤ t.annoOffset ∧ t.annoOffset.toNat < annoNames.buf.length)

theorem TypeSlot.In.grows {lpNames annoNames lpNames' annoNames' : NameBuf} {t : TypeSlot}
    (h : t.In lpNames annoNames) (hlp : lpNames.Wf) (hanno : annoNames.Wf)
    (hlp' : lpNames.Grows lpNames') (hanno' : annoNames.Grows annoNames') :
    t.In lpNames' annoNames' ∧ t.loaded lpNames' annoNames' = t.loaded lpNames annoNames := by
  refine ⟨⟨hlp'.lt h.name, ?_⟩, ?_⟩
  · obtain hno | ⟨hnonneg, hlt⟩ := h.anno
    · exact .inl hno
    · exact .inr ⟨hnonneg, hanno'.lt hlt⟩
  · unfold TypeSlot.loaded annoAt
    rw [hlp'.cstrAt hlp h.name]
    obtain hno | ⟨hnonneg, hlt⟩ := h.anno
    · rw [if_pos hno, if_pos hno]
    · rw [hanno'.cstrAt hanno hlt]

/-- The names of a load are in their buffers. -/
structure Load.Wf (st : Load) : Prop where
  groupNames : st.groupNames.Wf
  lpNames : st.lpNames.Wf
  annoNames : st.annoNames.Wf

theorem Load.start_wf (data : CStr) : (Load.start data).Wf :=
  have h : NameBuf.Wf ⟨[], []⟩ := ⟨.inl rfl, fun _ h => absurd h List.not_mem_nil⟩
  ⟨h, h, h⟩

/-- What a step leaves of the buffers. -/
structure Load.Grows (st st' : Load) : Prop where
  groupNames : st.groupNames.Grows st'.groupNames
  lpNames : st.lpNames.Grows st'.lpNames
  annoNames : st.annoNames.Grows st'.annoNames

theorem Load.Grows.refl (st : Load) : st.Grows st := ⟨.refl _, .refl _, .refl _⟩

theorem Load.Grows.trans {st st' st'' : Load} (h : st.Grows st') (h' : st'.Grows st'') :
    st.Grows st'' :=
  ⟨h.groupNames.trans h'.groupNames, h.lpNames.trans h'.lpNames, h.annoNames.trans h'.annoNames⟩

/-- The offsets of the types of a group are offsets of the buffers. -/
def GroupSlot.TypesIn (st : Load) (g : GroupSlot) : Prop :=
  ∀ t ∈ g.lptypes, t.In st.lpNames st.annoNames

theorem GroupSlot.TypesIn.grows {st st' : Load} {g : GroupSlot} (h : g.TypesIn st) (hst : st.Wf)
    (hgrows : st.Grows st') :
    g.TypesIn st' ∧ g.lptypes.map (TypeSlot.loaded st'.lpNames st'.annoNames) =
      g.lptypes.map (TypeSlot.loaded st.lpNames st.annoNames) :=
  ⟨fun t ht => ((h t ht).grows hst.lpNames hst.annoNames hgrows.lpNames hgrows.annoNames).1,
    List.map_congr_left fun t ht =>
      ((h t ht).grows hst.lpNames hst.annoNames hgrows.lpNames hgrows.annoNames).2⟩

end CodesSim.Config
