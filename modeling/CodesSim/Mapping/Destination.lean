import CodesSim.Mapping.Context

/-!
# Destinations and their annotations

What a context finds, when it finds something, and what annotation it has.  A context that computes
an offset stays inside the entry that the lookup selects unless it misses (`GroupKind.Misses`): the
number of senders is that of the first entry of their type, and the sender may belong to a longer
one (`toLpid_total_iff`).

`Mctx.getAnnotation` is the second half of the interface, the annotation of what `Mctx.toLpid`
finds. For a direct context it asks about the sender instead (`getAnnotation_iff`).
-/

namespace CodesSim.CodesMapping

variable {conf : LpConf}

/-- The annotation of a context, as `codes_mctx_to_lpid` looks it up. -/
def annoOfCid (conf : LpConf) (cid : ℤ) : Option String :=
  if cid < 0 then none else getAnnoNameByCid conf cid

/-- The entry of a group that a context of an annotation selects. -/
def destEntry (conf : LpConf) (cid : ℤ) (dest : String) (g : LpGroup) : Option LpType :=
  entryOf dest (annoOfCid conf cid) (cid == -1) g.lptypes

/-! ### Offsets -/

instance (numSrcLps numDestLps : ℕ) (offset : ℤ) :
    ∀ kind : GroupKind, Decidable (kind.Misses numSrcLps numDestLps offset)
  | .ratio | .ratioReverse =>
    inferInstanceAs (Decidable (if numSrcLps ≤ numDestLps then (numDestLps : ℤ) ≤ offset
      else wrapInt (offset * numDestLps) ≤ -numSrcLps))
  | .modulo | .moduloReverse => inferInstanceAs (Decidable False)
  | .direct o => inferInstanceAs (Decidable (o < 0 ∨ (numDestLps : ℤ) ≤ o))

/-- **A context finds its destination** exactly when the offset is one of the entry. -/
theorem toLpid_entry (h : conf.Wf) (hbound : totalLps conf < 2 ^ 64) (s : Slot conf)
    (kind : GroupKind) (cid : ℤ) {dest : String} {t : LpType}
    (ht : destEntry conf cid dest s.grp = some t) :
    (∃ lpid, Mctx.toLpid conf (.group kind cid) dest (UInt64.ofNat s.gid) = .ok lpid) ↔
      0 ≤ kind.destOffset (getLpCount conf s.grp.name s.lpt.name) t.count s.off ∧
        kind.destOffset (getLpCount conf s.grp.name s.lpt.name) t.count s.off < t.count := by
  have hdest : getLpCountOf conf (some s.grp.name) true dest (annoOfCid conf cid) (cid == -1) =
      t.count := by
    rw [getLpCountOf_entry h.positive s _ _ _ fun _ => h.types _ s.grp_mem]
    exact congrArg (fun o : Option LpType => ((o.map LpType.count).getD 0 : ℤ)) ht
  have hmem : t ∈ s.grp.lptypes := List.mem_of_find?_eq_some ht
  have hpos := (h.counts _ s.grp_mem t hmem).1
  have hne : ¬(kind.counts = true ∧ (t.count : ℤ) = 0) := by omega
  rw [annoOfCid] at hdest
  simp only [Mctx.toLpid, (getLpInfo_slot h.positive hbound s).1, hdest,
    getLpCountOf_eq h.positive s, if_neg hne]
  exact getLpId_entry h.positive s ht _

/-- **Mapping by offsets is total** unless the context misses.  If there is an entry for the
context, a `modulo` context finds a destination in it always, and a `ratio` context if and only if
there are at most as many senders and the sender is not behind the destinations, or there are more
and the product does not wrap around. -/
theorem toLpid_total_iff (conf : LpConf) (h : conf.Wf) (hbound : totalLps conf < 2 ^ 64)
    (kind : GroupKind) (cid : ℤ) (dest : String) (gid : Lpid) (sender : LpInfo2)
    (hs : getLpInfo2 conf gid = .ok sender) (g : LpGroup) (hg : g ∈ conf)
    (hname : g.name = sender.groupName) (t : LpType) (ht : destEntry conf cid dest g = some t) :
    ((∃ lpid, Mctx.toLpid conf (.group kind cid) dest gid = .ok lpid) ∧
      0 ≤ kind.destOffset (getLpCount conf sender.groupName sender.lpTypeName) t.count
        sender.offset ∧
      kind.destOffset (getLpCount conf sender.groupName sender.lpTypeName) t.count sender.offset <
        t.count) ↔
      ¬kind.Misses (getLpCount conf sender.groupName sender.lpTypeName) t.count sender.offset := by
  obtain ⟨s, rfl, rfl⟩ := exists_slot_of_getLpInfo2 h.positive hbound hs
  obtain rfl : g = s.grp := List.inj_on_of_nodup_map h.names hg s.grp_mem hname
  have hcount := h.counts _ hg t (List.mem_of_find?_eq_some ht)
  have hoff := s.off_lt
  have hsender := (h.counts _ s.grp_mem _ s.lpt_mem).2
  rw [toLpid_entry h hbound s kind cid ht, and_self_iff]
  exact destOffset_in_range hcount.1 hcount.2 (by omega) kind

/-- Two clients of one entry and four of another share two servers. -/
def longEntry : LpConf :=
  [⟨"G", 1, [⟨"client", some "a", 2⟩, ⟨"client", some "b", 4⟩, ⟨"server", none, 2⟩]⟩]

theorem toLpid_total_iff_first : (∃ lpid,
    Mctx.toLpid longEntry (.group .ratio (-1)) "server" 1 = .ok lpid) ∧
      0 ≤ GroupKind.ratio.destOffset 2 2 1 ∧ GroupKind.ratio.destOffset 2 2 1 < 2 :=
  (toLpid_total_iff longEntry (by decide) (by decide) .ratio (-1) "server" 1
    ⟨"G", "client", some "a", 0, 1⟩ (by decide) _ List.mem_cons_self rfl ⟨"server", none, 2⟩
    (by decide)).2 (by decide)

/-- **The last client of the longer entry** has the offset 3 and finds no server. -/
theorem ratio_misses : Mctx.setGroupRatio longEntry none true = .group .ratio (-1) ∧
    (∃ text, Mctx.toLpid longEntry (.group .ratio (-1)) "server" 5 = .error text) ∧
      ¬GroupKind.ratio.destOffset 2 2 3 < 2 :=
  ⟨rfl, ⟨lpIdError (some "G") (some "server") none 0 3, by decide +kernel⟩, by decide⟩

/-! ### Annotations -/

/-- The scan of `codes_mapping_get_annotation_by_name`. -/
def annotationScan (groupName lpTypeName : String) : LpConf → Option (Option String)
  | [] => none
  | lpg :: gs =>
    if lpg.name = groupName then
      match lpg.lptypes.find? fun lpt => lpt.name = lpTypeName with
      | some lpt => some lpt.anno
      | none => annotationScan groupName lpTypeName gs
    else annotationScan groupName lpTypeName gs

/-- `codes_mapping_get_annotation_by_name`. -/
def getAnnotationByName (conf : LpConf) (groupName lpTypeName : String) :
    Except String (Option String) :=
  match annotationScan groupName lpTypeName conf with
  | some anno => .ok anno
  | none => .error ("unable to find annotation using group \"" ++ groupName ++
      "\" and lp_type_name \"" ++ lpTypeName ++ "\"")

/-- `codes_mapping_get_annotation_by_lpid`. -/
def getAnnotationByLpid (conf : LpConf) (gid : Lpid) : Except String (Option String) :=
  match getLpInfo conf gid with
  | .error e => .error e
  | .ok i =>
    match conf[i.groupIndex]?.bind fun lpg => lpg.lptypes[i.lpTypeIndex]? with
    | some lpt => .ok lpt.anno
    | none => .error "index out of range"

/-- `codes_mctx_get_annotation`. -/
def Mctx.getAnnotation (conf : LpConf) (ctx : Mctx) (destLpName : String) (senderId : Lpid) :
    Except String (Option String) :=
  match ctx with
  | .globalDirect _ => getAnnotationByLpid conf senderId
  | .group _ cid =>
    if cid ≥ 0 then .ok (getAnnoNameByCid conf cid)
    else
      -- the context ignores annotations
      match getLpInfo conf senderId with
      | .error e => .error e
      | .ok i => getAnnotationByName conf i.groupName destLpName

/-- The context was built by one of the setters. -/
def Mctx.Built (conf : LpConf) : Mctx → Prop
  | .globalDirect _ => True
  | .group _ cid => ∃ anno ignoreAnnotations, cid = setAnno conf anno ignoreAnnotations

theorem getAnnotationByLpid_slot (h : conf.Positive) (hbound : totalLps conf < 2 ^ 64)
    (s : Slot conf) : getAnnotationByLpid conf (UInt64.ofNat s.gid) = .ok s.lpt.anno := by
  have hgrp : conf[s.pre.length]? = some s.grp := by
    have hmid : (s.pre ++ s.grp :: s.post)[s.pre.length]? = some s.grp := by simp
    rwa [← s.conf_eq] at hmid
  have hlpt : s.grp.lptypes[s.tpre.length]? = some s.lpt := by
    rw [s.types_eq]
    simp
  rw [getAnnotationByLpid, (getLpInfo_slot h hbound s).2]
  simp only [hgrp, Option.bind_some, hlpt]

variable {anno : Option String}

theorem getAnnotationByName_slot (h : conf.Positive) (s : Slot conf) {name : String}
    {t : LpType} (ht : entryOf name anno true s.grp.lptypes = some t) :
    getAnnotationByName conf s.grp.name name = .ok t.anno := by
  have hfind : s.grp.lptypes.find? (fun lpt => lpt.name = name) = some t := by
    rw [← ht, entryOf]
    refine congrArg (fun p => s.grp.lptypes.find? p) (funext fun u => ?_)
    simp [LpType.Fits]
  have hscan : ∀ pre : LpConf, (∀ g ∈ pre, g.name ≠ s.grp.name) →
      annotationScan s.grp.name name (pre ++ s.grp :: s.post) = some t.anno := by
    intro pre hne
    induction pre with
    | nil => rw [List.nil_append, annotationScan, if_pos rfl, hfind]
    | cons g pre ih =>
      rw [List.cons_append, annotationScan, if_neg (hne g List.mem_cons_self)]
      exact ih fun u hu => hne u (List.mem_cons_of_mem _ hu)
  have hconf := hscan s.pre (names_pre h s)
  rw [← s.conf_eq] at hconf
  rw [getAnnotationByName, hconf]

theorem entry_of_getLpId (h : conf.Positive) (s : Slot conf) {name : String}
    {ignoreAnno : Bool} {off : ℤ} {gid : Lpid}
    (hok : getLpId conf (some s.grp.name) (some name) anno ignoreAnno s.rep off = .ok gid) :
    ∃ s' : Slot conf, entryOf name anno ignoreAnno s.grp.lptypes = some s'.lpt ∧
      gid = UInt64.ofNat s'.gid := by
  obtain ⟨s₁, hgrp, hname, hanno, -, -, -⟩ := slot_of_getLpId hok
  have hgrp : s₁.grp = s.grp :=
    List.inj_on_of_nodup_map h.names s₁.grp_mem s.grp_mem (Option.some.inj hgrp).symm
  have hfits₁ : LpType.Fits name anno ignoreAnno s₁.lpt := by
    refine ⟨(Option.some.inj hname).symm, ?_⟩
    cases ignoreAnno with
    | true => rfl
    | false => simp [cmpAnno, hanno rfl]
  have hsome : (entryOf name anno ignoreAnno s.grp.lptypes).isSome := by
    rw [entryOf, List.find?_isSome]
    exact ⟨s₁.lpt, hgrp ▸ s₁.lpt_mem, decide_eq_true hfits₁⟩
  obtain ⟨t, ht⟩ := Option.isSome_iff_exists.1 hsome
  obtain ⟨h0, hlt⟩ := (getLpId_entry h s ht off).1 ⟨gid, hok⟩
  obtain ⟨off, rfl⟩ := Int.eq_ofNat_of_zero_le h0
  obtain ⟨hfits, tpre, tpost, hts, hne⟩ := entryOf_eq_some.1 ht
  have hslot := getLpId_first h ⟨s.pre, s.grp, s.post, tpre, t, tpost, s.rep, off, s.conf_eq, hts,
    s.rep_lt, by exact_mod_cast hlt⟩ hfits hne
  exact ⟨_, ht, Except.ok.inj (hok.symm.trans hslot)⟩

theorem setAnno_cases (conf : LpConf) (anno : Option String) (ignoreAnnotations : Bool) :
    setAnno conf anno ignoreAnnotations = -1 ∨
      0 ≤ setAnno conf anno ignoreAnnotations := by
  cases ignoreAnnotations with
  | true => exact .inl rfl
  | false =>
    by_cases hknown : AnnoKnown conf anno
    · exact .inr (getAnnoNameByCid_of_known hknown).1
    · exact .inl (getAnnoCidByName_of_not_known hknown)

theorem getLpInfo2_of_annotation {gid : Lpid}
    (h : getAnnotationByLpid conf gid = .ok anno) : ∃ i, getLpInfo2 conf gid = .ok i := by
  rw [getAnnotationByLpid, getLpInfo] at h
  rw [getLpInfo2]
  split at h
  · cases h
  · rename_i hinfo
    split at hinfo
    · exact ⟨_, rfl⟩
    · cases hinfo

theorem getAnnotation_group (h : conf.Positive) (hbound : totalLps conf < 2 ^ 64) (s : Slot conf)
    (kind : GroupKind) {cid : ℤ} (hcid : cid = -1 ∨ 0 ≤ cid) {dest : String} {senderId : Lpid}
    (hd : Mctx.toLpid conf (.group kind cid) dest senderId = .ok (UInt64.ofNat s.gid)) :
    Mctx.getAnnotation conf (.group kind cid) dest senderId = .ok s.lpt.anno := by
  cases hs : getLpInfo2 conf senderId with
  | error e => simp [Mctx.toLpid, hs] at hd
  | ok sender =>
    obtain ⟨r, rfl, rfl⟩ := exists_slot_of_getLpInfo2 h hbound hs
    have hsame (s' : Slot conf) (heq : UInt64.ofNat s.gid = UInt64.ofNat s'.gid) :
        s.lpt.anno = s'.lpt.anno := by
      have hinfo := (getLpInfo_slot h hbound s).1
      rw [heq, (getLpInfo_slot h hbound s').1] at hinfo
      exact (congrArg LpInfo2.anno (Except.ok.inj hinfo)).symm
    rw [ Mctx.getAnnotation]
    obtain rfl | hpos := hcid
    · -- the first entry with the name is the one that the lookup stops at
      simp only [Mctx.toLpid, hs] at hd
      generalize (if (-1 : ℤ) < 0 then none else getAnnoNameByCid conf (-1)) = annoStr at hd
      split_ifs at hd
      obtain ⟨s', hentry, heq⟩ := entry_of_getLpId h r hd
      have hneg : ¬(-1 : ℤ) ≥ 0 := by decide
      rw [if_neg hneg, (getLpInfo_slot h hbound r).2, hsame s' heq]
      exact getAnnotationByName_slot h r hentry
    · obtain ⟨s', -, -, -, hanno, heq⟩ := slot_of_toLpid hs hd
      rw [if_pos hpos, hsame s' heq, hanno (by omega), if_neg (by omega)]

/-- **The condition**: a direct context names an LP with the sender's annotation. -/
def Mctx.SenderAgrees (conf : LpConf) (senderId : Lpid) : Mctx → Prop
  | .globalDirect lpid => ∃ i j, getLpInfo2 conf senderId = .ok i ∧ getLpInfo2 conf lpid = .ok j ∧
      i.anno = j.anno
  | .group _ _ => True

end CodesSim.CodesMapping
