import CodesSim.Config.Escapes

/-!
# Writing and reading back

Which trees `txtfile_writeConfig` writes so that `txtfile_openStream` makes the same tree again.

* `DumpFits` is the condition: each entry is what a lookup of its name finds, keys have values,
  values are clean and a single one has at most 254 characters, and the text is not too large.
* `read_dump` reads the text of such entries back.
* `dump_exact` is the converse.  It follows the parser through the text, as what was read stays; the
  first entry that does not fit is read as another one.
-/

namespace CodesSim.Config

/-! ### The condition -/

/-- Entries that are read back, of a section. -/
inductive Dumpable : List Entry → List Entry → Prop
  | nil {s : List Entry} : Dumpable s []
  | key {s es : List Entry} {name : CStr} {values : List CStr}
    (hfind : findKey s name = some values)
      (hne : values ≠ []) (hlen : ∀ v, values = [v] → v.length ≤ 254)
      (hclean : ∀ v ∈ values, Clean v) (hes : Dumpable s es) : Dumpable s (.key name values :: es)
  | subsection {s es children : List Entry} {name : CStr}
      (hopen : Config.openSection s name = some children) (hchildren : Dumpable children children)
      (hes : Dumpable s es) : Dumpable s (.subsection name children :: es)

/-- The number of characters of values and the punctuation around them. -/
def valuesSize : List CStr → ℕ
  | [v] => v.length + 7
  | values => (values.map fun v => v.length + 5).sum + 5

/-- The number of characters of entries. -/
def dumpSize (indent : ℕ) : List Entry → ℕ
  | [] => 0
  | .key name values :: es => indent + name.length + valuesSize values + dumpSize indent es
  | .subsection name children :: es =>
    indent + name.length + 4 + dumpSize (indent + 2) children + indent + 2 + dumpSize indent es

/-- The tree is read back. -/
structure DumpFits (root : List Entry) : Prop where
  dumpable : Dumpable root root
  size : dumpSize 0 root ≤ maxConfigSize

theorem Dumpable.append {s es es' : List Entry} (h : Dumpable s es) (h' : Dumpable s es') :
    Dumpable s (es ++ es') := by
  induction h with
  | nil => exact h'
  | key hfind hne hlen hclean _ ih => exact .key hfind hne hlen hclean (ih h')
  | subsection hopen hchildren _ _ ih => exact .subsection hopen hchildren (ih h')

variable {values : List CStr}

theorem Dumpable.key_mem {s es : List Entry} (h : Dumpable s es) {name : CStr}
    (hmem : .key name values ∈ es) : values ≠ [] ∧ (∀ v, values = [v] → v.length ≤ 254) ∧
      ∀ v ∈ values, Clean v := by
  induction h with
  | nil => exact absurd hmem List.not_mem_nil
  | key hfind hne hlen hclean _ ih =>
    rcases List.mem_cons.1 hmem with heq | hrest
    · cases heq
      exact ⟨hne, hlen, hclean⟩
    · exact ih hrest
  | subsection hopen hchildren _ _ ih => exact ih ((List.mem_cons.1 hmem).resolve_left nofun)

variable {children : List Entry}

theorem Dumpable.subsection_mem {s es : List Entry} (h : Dumpable s es) {name : CStr}
    (hmem : .subsection name children ∈ es) : Dumpable children children := by
  induction h with
  | nil => exact absurd hmem List.not_mem_nil
  | key hfind hne hlen hclean _ ih => exact ih ((List.mem_cons.1 hmem).resolve_left nofun)
  | subsection hopen hchildren _ _ ih =>
    rcases List.mem_cons.1 hmem with heq | hrest
    · cases heq
      exact hchildren
    · exact ih hrest

theorem Producible.key_mem {k : ℕ} {es : List Entry} (h : Producible k es) {name : CStr}
    (hmem : .key name values ∈ es) :
    IsId name ∧ values.length < maxValues ∧ ∀ v ∈ values, IsLiteral v := by
  induction h with
  | nil => exact absurd hmem List.not_mem_nil
  | key hname hcount hvalues _ ih =>
    rcases List.mem_cons.1 hmem with heq | hrest
    · cases heq
      exact ⟨hname, hcount, hvalues⟩
    · exact ih hrest
  | subsection _ _ _ _ _ ih => exact ih ((List.mem_cons.1 hmem).resolve_left nofun)

theorem Producible.subsection_mem {k : ℕ} {es : List Entry} (h : Producible k es) {name : CStr}
    (hmem : .subsection name children ∈ es) :
    IsId name ∧ k + 1 < sectionStackSize ∧ Producible (k + 1) children := by
  induction h with
  | nil => exact absurd hmem List.not_mem_nil
  | key _ _ _ _ ih => exact ih ((List.mem_cons.1 hmem).resolve_left nofun)
  | subsection hname hdepth hchildren _ _ ih =>
    rcases List.mem_cons.1 hmem with heq | hrest
    · cases heq
      exact ⟨hname, hdepth, hchildren⟩
    · exact ih hrest

/-! ### The text of an entry -/

/-- Entries as a listing has them. -/
def listed (es : List Entry) : List SectionEntry := es.map fun e => ⟨e.name, e.type⟩

/-- What is written for entries of a section, after a success or a failure. -/
def dumpText (s : List Entry) (indent : ℕ) (es : List Entry) (ret : Bool) : CStr × Bool :=
  dumpEntries (fun entry => dumpEntry s indent entry) indent (listed es) ret

theorem dumpSection_eq (s : List Entry) (indent : ℕ) :
    dumpSection s indent = dumpText s indent s true := by
  rw [dumpSection, listSection, List.take_length]
  rfl

/-- What is written for one entry. -/
def entryText (s : List Entry) (indent : ℕ) (e : Entry) : CStr × Bool :=
  dumpEntry s indent ⟨e.name, e.type⟩

theorem dumpText_cons (s : List Entry) (indent : ℕ) (e : Entry) (es : List Entry) :
    dumpText s indent (e :: es) true = (showIndent indent ++ (entryText s indent e).1 ++
      (dumpText s indent es (entryText s indent e).2).1,
      (dumpText s indent es (entryText s indent e).2).2) := rfl

variable {s : List Entry} {indent : ℕ}

theorem entryText_key {name : CStr}
    (hle : values.length ≤ 1) : entryText s indent (.key name values) =
      match getKey s name 255 with
      | .error _ => ([], false)
      | .ok buf => (name ++ " = \"" ++ buf ++ "\";\n", true) := by
  have htype : (Entry.key name values).type = .key := if_pos hle
  rw [entryText, dumpEntry, htype]
  rfl

theorem entryText_multikey {name : CStr}
    (hlt : ¬values.length ≤ 1) : entryText s indent (.key name values) =
      match getMultiKey s name with
      | .error _ => ([], false)
      | .ok ptrs => (name ++ " = (" ++ dumpValues ptrs ++ ");\n", true) := by
  have htype : (Entry.key name values).type = .multikey := if_neg hlt
  rw [entryText, dumpEntry, htype]
  rfl

theorem entryText_subsection {opened : List Entry} {name : CStr}
    (hopen : openSection s name = some opened) :
    entryText s indent (.subsection name children) =
      (name ++ " \x7b \n" ++ (dumpText opened (indent + 2) opened true).1 ++ showIndent indent ++
        "\x7d\n", (dumpText opened (indent + 2) opened true).2) := by
  have htype : (Entry.subsection name children).type = .subsection := rfl
  have hopen' : openSection s (Entry.subsection name children).name = some opened := hopen
  rw [entryText, dumpEntry, htype]
  dsimp only
  split
  · next heq => rw [hopen'] at heq; cases heq
  · next newsec heq =>
    rw [hopen'] at heq
    cases heq
    rw [dumpSection_eq]
    rfl

theorem yyparse_failed (p : Parse) (s : List Entry) (indent : ℕ) (es : List Entry) (text : CStr) :
    yyparse p ((dumpText s indent es false).1 ++ text) = yyparse p text := by
  induction es with
  | nil => rfl
  | cons e es ih =>
    have htext : (dumpText s indent (e :: es) false).1 ++ text =
        showIndent indent ++ ((dumpText s indent es false).1 ++ text) := by
      show (showIndent indent ++ [] ++ (dumpText s indent es false).1) ++ text = _
      rw [List.append_nil, List.append_assoc]
    rw [htext, yyparse_indent, ih]

/-! ### Entries that fit are read back -/

theorem getKey_single {name v : CStr} (hfind : findKey s name = some [v]) :
    getKey s name 255 = .ok (v.take 254) := by
  rw [getKey, hfind]

theorem entryText_of_find {name : CStr} (hfind : findKey s name = some values) (hne : values ≠ [])
    (hlen : ∀ v, values = [v] → v.length ≤ 254) :
    (∃ v, values = [v] ∧ entryText s indent (.key name values) =
      (name ++ " = \"" ++ v ++ "\";\n", true)) ∨
      2 ≤ values.length ∧ entryText s indent (.key name values) =
        (name ++ " = (" ++ dumpValues values ++ ");\n", true) := by
  match values, hne, hlen with
  | [v], _, hlen =>
    refine .inl ⟨v, rfl, ?_⟩
    rw [entryText_key (show [v].length ≤ 1 from Nat.le_refl 1), getKey_single hfind,
      List.take_of_length_le (hlen v rfl)]
  | v :: v' :: vs, _, _ =>
    refine .inr ⟨by simp, ?_⟩
    rw [entryText_multikey (by simp), getMultiKey, hfind]

variable {w : Expect}

/-- **Entries that fit are read back.** -/
theorem read_dump {es : List Entry} (h : Dumpable s es) {outer : List (CStr × List Entry)}
    (hes : Producible outer.length es) (before : List Entry) (hw : w.Between)
    (indent : ℕ) : (dumpText s indent es true).2 = true ∧ ∃ w' : Expect, w'.Between ∧
      ∀ text, yyparse ⟨outer, before, w⟩ ((dumpText s indent es true).1 ++ text) =
        yyparse ⟨outer, before ++ es, w'⟩ text := by
  induction h generalizing outer before w indent with
  | nil => exact ⟨rfl, w, hw, fun text => by rw [List.append_nil]; rfl⟩
  | @key s es name values hfind hne hlen hclean _ ih =>
    cases hes with
    | key hname hcount hvalues hes =>
      have hentry : (entryText s indent (.key name values)).2 = true ∧
          ∀ text, yyparse ⟨outer, before, w⟩ ((entryText s indent (.key name values)).1 ++ text) =
            yyparse ⟨outer, before ++ [.key name values], .entry⟩ text := by
        rcases entryText_of_find hfind hne hlen with ⟨v, rfl, htext⟩ | ⟨hmulti, htext⟩
        · rw [htext]
          exact ⟨rfl, yyparse_key hname (hvalues v List.mem_cons_self)
            (hclean v List.mem_cons_self) hw⟩
        · rw [htext]
          exact ⟨rfl, yyparse_multikey hname hvalues hclean hcount hw⟩
      obtain ⟨hret, w', hw', hread⟩ := ih hes (before ++ [.key name values]) (.inl rfl) indent
      rw [dumpText_cons, hentry.1]
      refine ⟨hret, w', hw', fun text => ?_⟩
      rw [List.append_assoc, List.append_assoc, yyparse_indent, hentry.2, hread, List.append_assoc]
      rfl
  | @subsection s es children name hopen _ _ ihchildren ih =>
    cases hes with
    | subsection hname hdepth hchildren hes =>
      have hinner : Producible ((name, before) :: outer).length children := hchildren
      obtain ⟨hretC, wC, hwC, hreadC⟩ := ihchildren hinner [] (w := .entry) (.inl rfl) (indent + 2)
      obtain ⟨hret, w', hw', hread⟩ :=
        ih hes (before ++ [.subsection name children]) (.inr rfl) indent
      rw [dumpText_cons, entryText_subsection hopen, hretC]
      refine ⟨hret, w', hw', fun text => ?_⟩
      simp only [List.append_assoc]
      rw [yyparse_indent, ← List.append_assoc name, yyparse_open hname hdepth hw, hreadC,
        List.nil_append, yyparse_close hwC, hread, List.append_assoc]
      rfl

/-! ### Entries that are read back fit -/

section Exact

variable {outer : List (CStr × List Entry)} {before es root : List Entry} {name text : CStr}

theorem entry_unique {e e' : Entry} (hw : w.Between)
    (hrun : yyparse ⟨outer, before ++ [e'], w⟩ text = .ok root)
    (hs : Reads outer (before ++ e :: es) root) : e' = e := by
  obtain ⟨more, hreads⟩ : ∃ more, Reads outer (before ++ [e'] ++ more) root := by
    have hextends := yyparse_extends hrun
    rcases hw with rfl | rfl
    · exact hextends
    · exact hextends
  rw [List.append_assoc] at hreads
  exact (List.cons.inj (List.append_cancel_left (hreads.unique hs))).1

theorem yyparse_literal {p : Parse} (hp : p.finish = .error .grammar)
    (hrun : yyparse p ('"' :: text) = .ok root) :
    ∃ v rest p', lexString [] text = .token (.literalString v) rest ∧
      p.step (.literalString v) = .ok p' ∧ yyparse p' rest = .ok root := by
  have hlex : yylex ('"' :: text) = lexString [] text := by
    rw [yylex]
    rfl
  rcases yyparse_ok hrun with ⟨-, hfinish⟩ | ⟨t, rest, p', ht, hstep, hrest⟩
  · rw [hp] at hfinish
    cases hfinish
  · rw [hlex] at ht
    obtain ⟨v, rfl, -⟩ := lexString_wf ht
    exact ⟨v, rest, p', ht, hstep, hrest⟩

theorem value_unique {v : CStr} (hs : Reads outer (before ++ .key name [v] :: es) root)
    (hrun : yyparse ⟨outer, before, .value name⟩ ('"' :: text) = .ok root) :
    ∃ rest, lexString [] text = .token (.literalString v) rest := by
  have hfinish : Parse.finish ⟨outer, before, .value name⟩ = .error .grammar := by
    cases outer <;> rfl
  obtain ⟨v', rest, p', hlex, hstep, hrest⟩ := yyparse_literal hfinish hrun
  cases hstep
  obtain ⟨more, hreads⟩ := yyparse_extends hrest
  have hentry := (List.cons.inj (List.append_cancel_left (hreads.unique hs))).1
  obtain ⟨-, hvalues⟩ := Entry.key.inj hentry
  rw [← List.singleton_inj.1 hvalues]
  exact ⟨rest, hlex⟩

theorem listValue_unique {v : CStr} {vs : List CStr} {E : Expect} (hE : E.BeforeValue name values)
    (hs : Reads outer (before ++ .key name (values ++ v :: vs) :: es) root)
    (hrun : yyparse ⟨outer, before, E⟩ ('"' :: text) = .ok root) :
    ∃ rest, lexString [] text = .token (.literalString v) rest := by
  have hfinish : Parse.finish ⟨outer, before, E⟩ = .error .grammar := by
    rcases hE with ⟨rfl, -⟩ | rfl <;> cases outer <;> rfl
  obtain ⟨v', rest, p', hlex, hstep, hrest⟩ := yyparse_literal hfinish hrun
  rw [hE.step, Parse.addValue] at hstep
  split_ifs at hstep
  cases hstep
  obtain ⟨vs', more, hreads⟩ := yyparse_extends hrest
  have hentry := (List.cons.inj (List.append_cancel_left (hreads.unique hs))).1
  obtain ⟨-, hvalues⟩ := Entry.key.inj hentry
  rw [List.append_assoc] at hvalues
  have hv := (List.cons.inj (List.append_cancel_left hvalues)).1
  rw [← hv]
  exact ⟨rest, hlex⟩

/-- **The values of a list** are clean if they are read back. -/
theorem clean_of_values {vs : List CStr} (hvalues : ∀ v ∈ vs, IsLiteral v)
    (hcount : (values ++ vs).length < maxValues) {E : Expect} (hE : E.BeforeValue name values)
    (hs : Reads outer (before ++ .key name (values ++ vs) :: es) root)
    (hrun : yyparse ⟨outer, before, E⟩ (dumpValues vs ++ ')' :: (";\n" ++ text)) =
      .ok root) : ∀ v ∈ vs, Clean v := by
  induction vs generalizing values E with
  | nil => exact fun v hv => absurd hv List.not_mem_nil
  | cons v vs ih =>
    have hclean : Clean v := by
      by_contra hunclean
      cases vs with
      | nil =>
        have htext : dumpValues [v] ++ ')' :: (";\n" ++ text) =
            '"' :: (v ++ '"' :: ' ' :: ')' :: ';' :: '\n' :: text) := by
          simp [dumpValues]
        rw [htext] at hrun
        obtain ⟨rest, hlex⟩ := listValue_unique hE hs hrun
        exact lexString_last hunclean hlex rfl
      | cons v' vs =>
        have htext : ∃ more, dumpValues (v :: v' :: vs) ++ ')' :: (";\n" ++ text) =
            '"' :: (v ++ '"' :: ' ' :: ',' :: ' ' :: '"' :: more) := by
          cases vs <;> simp [dumpValues]
        obtain ⟨more, htext⟩ := htext
        rw [htext] at hrun
        obtain ⟨rest, hlex⟩ := listValue_unique hE hs hrun
        exact lexString_next hunclean hlex rfl
    intro x hx
    rcases List.mem_cons.1 hx with rfl | hx
    · exact hclean
    · cases vs with
      | nil => exact absurd hx List.not_mem_nil
      | cons v' vs =>
        have htext : dumpValues (v :: v' :: vs) ++ ')' :: (";\n" ++ text) =
            dumpValues [v] ++
              ',' :: ' ' :: (dumpValues (v' :: vs) ++ ')' :: (";\n" ++ text)) := by
          simp [dumpValues]
        have hsingle : ∀ v'' ∈ [v], IsLiteral v'' ∧ Clean v'' := fun v'' hv => by
          rw [List.mem_singleton.1 hv]
          exact ⟨hvalues v List.mem_cons_self, hclean⟩
        have hnext : Parse.step ⟨outer, before, .afterValue name (values ++ [v])⟩ .komma =
            .ok ⟨outer, before, .nextValue name (values ++ [v])⟩ := rfl
        have hmove : (values ++ [v]) ++ v' :: vs = values ++ v :: v' :: vs := by simp
        rw [htext, yyparse_values (List.cons_ne_nil v []) (fun v hv => (hsingle v hv).1)
          (fun v hv => (hsingle v hv).2) hE (by simp at hcount ⊢; omega), yyparse_char rfl hnext,
          yyparse_blank] at hrun
        exact ih (fun v hv => hvalues v (List.mem_cons_of_mem _ hv)) (by rwa [hmove]) (.inr rfl)
          (by rwa [hmove]) hrun x hx

theorem findKey_split {found : List CStr}
    (hsplit : s = before ++ .key name values :: es) (hfind : findKey s name = some found) :
    .key name found ∈ before ∨ found = values := by
  unfold findKey findChild at hfind
  rw [hsplit, List.find?_append] at hfind
  cases hbefore : before.find? fun e => e.name == name with
  | none =>
    have hself : (Entry.key name values :: es).find? (fun e => e.name == name) =
        some (.key name values) := List.find?_cons_of_pos (beq_self_eq_true name)
    rw [hbefore, Option.none_or, hself] at hfind
    exact .inr (Option.some.inj hfind).symm
  | some e =>
    rw [hbefore, Option.some_or] at hfind
    have hname := List.find?_some hbefore
    cases e with
    | subsection name' children => cases hfind
    | key name' values' =>
      cases hfind
      obtain rfl : name' = name := eq_of_beq hname
      exact .inl (List.mem_of_find?_eq_some hbefore)

theorem openSection_split (hsplit : s = before ++ .subsection name children :: es) : ∃ opened,
      openSection s name = some opened ∧
        ((∃ name', .subsection name' opened ∈ before) ∨ opened = children) := by
  rw [hsplit]
  clear hsplit
  induction before with
  | nil => exact ⟨children, if_pos (strcasecmp_self name), .inr rfl⟩
  | cons e before ih =>
    obtain ⟨opened, hopen, hor⟩ := ih
    have hlater : (∃ name', .subsection name' opened ∈ e :: before) ∨ opened = children :=
      hor.imp_left fun ⟨name', hmem⟩ => ⟨name', List.mem_cons_of_mem _ hmem⟩
    cases e with
    | key name' values => exact ⟨opened, hopen, hlater⟩
    | subsection name' children' =>
      by_cases hsame : strcasecmp name' name = true
      · exact ⟨children', if_pos hsame, .inl ⟨name', List.mem_cons_self⟩⟩
      · exact ⟨opened, (if_neg hsame).trans hopen, hlater⟩

/-- **A key that is read back fits.** -/
theorem key_exact (hp : Producible outer.length s)
    (hs : Reads outer s root) (hsplit : s = before ++ .key name values :: es)
    (hbefore : Dumpable s before) (hw : w.Between) {after : CStr}
    (hret : (entryText s indent (.key name values)).2 = true)
    (hrun : yyparse ⟨outer, before, w⟩ ((entryText s indent (.key name values)).1 ++ after) =
      .ok root) : Dumpable s [.key name values] := by
  have hmem : Entry.key name values ∈ s := by simp [hsplit]
  obtain ⟨hname, hcount, hvalues⟩ := hp.key_mem hmem
  have hs' : Reads outer (before ++ .key name values :: es) root := hsplit ▸ hs
  cases hfind : findKey s name with
  | none =>
    -- nothing is written
    by_cases hle : values.length ≤ 1
    · rw [entryText_key hle, getKey, hfind] at hret
      cases hret
    · rw [entryText_multikey hle, getMultiKey, hfind] at hret
      cases hret
  | some found =>
    have hfits : (.key name found ∈ before) ∨ found = values := findKey_split hsplit hfind
    have hfound : found.length < maxValues ∧ ∀ v ∈ found, IsLiteral v := by
      rcases hfits with hearlier | rfl
      · exact (hp.key_mem (by rw [hsplit]; exact List.mem_append_left _ hearlier)).2
      · exact ⟨hcount, hvalues⟩
    by_cases hle : values.length ≤ 1
    · rw [entryText_key hle, getKey, hfind] at hret hrun
      match found with
      | [] =>
        -- it is read with one value, and there was none
        have hempty : values = [] := by
          rcases hfits with hearlier | hself
          · exact absurd rfl (hbefore.key_mem hearlier).1
          · exact hself.symm
        have hread := hrun
        simp only at hread
        rw [yyparse_key hname ⟨by simp [NoNul], by decide⟩ (fun c hc => absurd hc List.not_mem_nil)
          hw] at hread
        have heq := entry_unique (.inl rfl) hread hs'
        rw [hempty] at heq
        cases heq
      | [v] =>
        simp only at hrun
        have hv := hfound.2 v List.mem_cons_self
        have hlit : IsLiteral (v.take 254) :=
          ⟨fun hnul => hv.noNul (List.mem_of_mem_take hnul),
            (List.length_take_le' _ _).trans_lt hv.short⟩
        have hclean : Clean (v.take 254) := by
          rcases hfits with hearlier | rfl
          · exact fun c hc => (hbefore.key_mem hearlier).2.2 v List.mem_cons_self c
              (List.mem_of_mem_take hc)
          · by_contra hunclean
            have htext : name ++ " = \"" ++ v.take 254 ++ "\";\n" ++ after =
                name ++ " = " ++ '"' :: (v.take 254 ++ '"' :: ';' :: '\n' :: after) := by
              simp
            rw [htext, yyparse_equal hname hw] at hrun
            obtain ⟨rest, hlex⟩ := value_unique hs' hrun
            have hshort := lexString_short hunclean hlex
            exact absurd (List.length_take_le' 254 v) (Nat.not_le.2 hshort)
        rw [yyparse_key hname hlit hclean hw] at hrun
        obtain ⟨-, rfl⟩ := Entry.key.inj (entry_unique (.inl rfl) hrun hs')
        have hself : v.take 254 = v := by
          rcases hfits with hearlier | hself
          · exact List.take_of_length_le ((hbefore.key_mem hearlier).2.1 v rfl)
          · exact (List.singleton_inj.1 hself).symm
        have hlen : v.length ≤ 254 := hself ▸ List.length_take_le 254 v
        rw [hself] at hclean ⊢
        refine .key hfind (List.cons_ne_nil v []) (fun x hx => ?_) (fun x hx => ?_) .nil
        · rw [← List.singleton_inj.1 hx]
          exact hlen
        · rw [List.mem_singleton.1 hx]
          exact hclean
      | v :: v' :: vs => cases hret
    · rw [entryText_multikey hle, getMultiKey, hfind] at hrun
      simp only at hrun
      have hclean : ∀ v ∈ found, Clean v := by
        rcases hfits with hearlier | rfl
        · exact (hbefore.key_mem hearlier).2.2
        · have htext : name ++ " = (" ++ dumpValues found ++ ");\n" ++ after =
              name ++ " = (" ++ (dumpValues found ++ ')' :: (";\n" ++ after)) := by
            simp
          have hlist := hrun
          rw [htext, yyparse_lopen hname hw] at hlist
          exact clean_of_values hvalues (show ([] ++ found).length < maxValues from hcount)
            (.inl ⟨rfl, rfl⟩) hs' hlist
      rw [yyparse_multikey hname hfound.2 hclean hfound.1 hw] at hrun
      obtain ⟨-, rfl⟩ := Entry.key.inj (entry_unique (.inl rfl) hrun hs')
      refine .key hfind (fun hnil => hle (hnil ▸ Nat.zero_le 1)) (fun v hv => ?_) hclean .nil
      exact absurd (hv ▸ Nat.le_refl 1) hle

/-- The text behind a section lets it end. -/
def Closes (outer : List (CStr × List Entry)) (text : CStr) (root : List Entry) : Prop :=
  ∀ (w : Expect) (children : List Entry), w.Between →
    yyparse ⟨outer, children, w⟩ text = .ok root → Reads outer children root

theorem closes_brace (before : List Entry) (indent : ℕ) (text : CStr) :
    Closes ((name, before) :: outer) (showIndent indent ++ ("\x7d\n" ++ text)) root := by
  intro w children hw hrun
  rw [yyparse_close hw] at hrun
  obtain ⟨more, hreads⟩ := yyparse_extends hrun
  rw [List.append_assoc] at hreads
  exact ⟨more, hreads⟩

theorem key_failed (h : (entryText s indent (.key name values)).2 = false) :
    (entryText s indent (.key name values)).1 = [] := by
  by_cases hle : values.length ≤ 1
  · rw [entryText_key hle] at h ⊢
    split
    · rfl
    · next heq => rw [heq] at h; cases h
  · rw [entryText_multikey hle] at h ⊢
    split
    · rfl
    · next heq => rw [heq] at h; cases h

/-- **A section that is read back fits**, if its own text does. -/
theorem subsection_exact (hp : Producible outer.length s)
    (hs : Reads outer s root) (hsplit : s = before ++ .subsection name children :: es)
    (hbefore : Dumpable s before) (hw : w.Between) {after : CStr}
    (hown : ∀ text, Closes ((name, before) :: outer) text root →
      yyparse ⟨(name, before) :: outer, [], .entry⟩
        ((dumpText children (indent + 2) children true).1 ++ text) = .ok root →
      Dumpable children children)
    (hrun : yyparse ⟨outer, before, w⟩
      ((entryText s indent (.subsection name children)).1 ++ after) = .ok root) :
    Dumpable s [.subsection name children] := by
  have hmem : Entry.subsection name children ∈ s := by simp [hsplit]
  obtain ⟨hname, hdepth, hchildren⟩ := hp.subsection_mem hmem
  obtain ⟨opened, hopen, hor⟩ := openSection_split hsplit
  rw [entryText_subsection hopen] at hrun
  simp only [List.append_assoc] at hrun
  rw [← List.append_assoc name, yyparse_open hname hdepth hw] at hrun
  rcases hor with ⟨name', hearlier⟩ | rfl
  · -- its text is that of a section that was read back
    have hfits := hbefore.subsection_mem hearlier
    have hinner : Producible ((name, before) :: outer).length opened :=
      (hp.subsection_mem (by rw [hsplit]; exact List.mem_append_left _ hearlier)).2.2
    obtain ⟨-, w', hw', hread⟩ := read_dump hfits hinner [] (w := .entry) (.inl rfl) (indent + 2)
    rw [hread, List.nil_append, yyparse_close hw'] at hrun
    obtain ⟨-, rfl⟩ := Entry.subsection.inj (entry_unique (.inr rfl) hrun (hsplit ▸ hs))
    exact .subsection hopen hfits .nil
  · exact .subsection hopen (hown _ (closes_brace before indent after) hrun) .nil

/-- **All entries that are read back fit.** -/
theorem dump_exact (hp : Producible outer.length s) (hs : Reads outer s root)
    (hsplit : s = before ++ es) (hbefore : Dumpable s before) (hw : w.Between)
    (hcloses : Closes outer text root)
    (hrun : yyparse ⟨outer, before, w⟩ ((dumpText s indent es true).1 ++ text) = .ok root) :
    Dumpable s es := by
  induction hsize : sizeOf s using Nat.strong_induction_on
    generalizing s outer before es w indent text with
  | _ n ihsize =>
    subst hsize
    induction es generalizing before w with
    | nil => exact .nil
    | cons e es ih =>
      have hmem : e ∈ s := by simp [hsplit]
      have hskip := hrun
      rw [dumpText_cons, List.append_assoc, List.append_assoc, yyparse_indent] at hrun
      have hentry : Dumpable s [e] := by
        cases e with
        | key name values =>
          cases hret : (entryText s indent (.key name values)).2 with
          | true => exact key_exact hp hs hsplit hbefore hw hret hrun
          | false =>
            -- nothing more is written, and the section ends too early
            rw [key_failed hret, hret, List.nil_append, yyparse_failed] at hrun
            have hshort := congrArg List.length ((hcloses w before hw hrun).unique hs)
            rw [hsplit, List.length_append, List.length_cons] at hshort
            omega
        | subsection name children =>
          refine subsection_exact hp hs hsplit hbefore hw (fun text' hcloses' hrun' => ?_) hrun
          have hinner : Producible ((name, before) :: outer).length children :=
            (hp.subsection_mem hmem).2.2
          exact ihsize (sizeOf children) (sizeOf_children hmem) hinner ⟨es, hsplit ▸ hs⟩ rfl .nil
            (.inl rfl) hcloses' hrun' rfl
      have hproducible : Producible outer.length [e] := by
        cases e with
        | key name values =>
          obtain ⟨hname, hcount, hvalues⟩ := hp.key_mem hmem
          exact .key hname hcount hvalues .nil
        | subsection name children =>
          obtain ⟨hname, hdepth, hchildren⟩ := hp.subsection_mem hmem
          exact .subsection hname hdepth hchildren .nil
      -- the entry is read back, and the parser is behind it
      obtain ⟨hret, w', hw', hread⟩ := read_dump hentry hproducible before hw indent
      have hone : (entryText s indent e).2 = true := hret
      have hnext := hread ((dumpText s indent es true).1 ++ text)
      rw [dumpText_cons, hone] at hskip hnext
      have hrest : s = (before ++ [e]) ++ es := by rw [hsplit, List.append_assoc]; rfl
      have hcons : Dumpable s (e :: es) := hentry.append (ih hrest (hbefore.append hentry) hw' (by
        rw [← hnext]
        simpa [dumpText, dumpEntries, listed] using hskip))
      exact hcons

end Exact

/-! ### The size of the text -/

theorem dumpValues_length (hne : values ≠ []) :
    (dumpValues values).length + 2 = (values.map fun v => v.length + 5).sum := by
  induction values with
  | nil => exact absurd rfl hne
  | cons v vs ih =>
    cases vs with
    | nil =>
      have htext : dumpValues [v] = '"' :: (v ++ ['"', ' ']) := by simp [dumpValues]
      rw [htext]
      simp
    | cons v' vs =>
      have htext : dumpValues (v :: v' :: vs) =
          '"' :: (v ++ '"' :: ' ' :: ',' :: ' ' :: dumpValues (v' :: vs)) := by
        simp [dumpValues]
      have hrest := ih (List.cons_ne_nil v' vs)
      rw [htext, List.map_cons, List.sum_cons, ← hrest]
      simp only [List.length_cons, List.length_append]
      omega

theorem showIndent_length (indent : ℕ) : (showIndent indent).length = indent :=
  List.length_replicate

theorem dump_size {es : List Entry} (h : Dumpable s es) (indent : ℕ) :
    (dumpText s indent es true).2 = true ∧
      (dumpText s indent es true).1.length = dumpSize indent es := by
  induction h generalizing indent with
  | nil =>
    refine ⟨rfl, ?_⟩
    rw [dumpSize]
    rfl
  | @key s es name values hfind hne hlen hclean _ ih =>
    have hentry : (entryText s indent (.key name values)).2 = true ∧
        (entryText s indent (.key name values)).1.length = name.length + valuesSize values := by
      rcases entryText_of_find hfind hne hlen with ⟨v, rfl, htext⟩ | ⟨hmulti, htext⟩
      · rw [htext]
        refine ⟨rfl, ?_⟩
        simp [valuesSize]
      · rw [htext]
        refine ⟨rfl, ?_⟩
        have hvalues := dumpValues_length hne
        have hopening : " = (".toList.length = 4 := rfl
        have hclosing : ");\n".toList.length = 3 := rfl
        have hsize : valuesSize values = (values.map fun v => v.length + 5).sum + 5 := by
          cases values with
          | nil => exact absurd hmulti (by decide)
          | cons v values =>
            cases values with
            | nil => exact absurd hmulti (by simp)
            | cons w values => rfl
        simp only [List.length_append, hopening, hclosing, hsize, ← hvalues]
        omega
    rw [dumpText_cons, hentry.1, dumpSize, ← (ih indent).2]
    refine ⟨(ih indent).1, ?_⟩
    simp only [List.length_append, showIndent_length, hentry.2]
    omega
  | @subsection s es children name hopen _ _ ihchildren ih =>
    rw [dumpText_cons, entryText_subsection hopen, (ihchildren (indent + 2)).1, dumpSize,
      ← (ih indent).2, ← (ihchildren (indent + 2)).2]
    refine ⟨(ih indent).1, ?_⟩
    have hopening : " \x7b \n".toList.length = 4 := rfl
    have hclosing : "\x7d\n".toList.length = 2 := rfl
    simp only [List.length_append, showIndent_length, hopening, hclosing]
    omega

/-! ### The result -/

theorem yyparse_nil (p : Parse) : yyparse p [] = p.finish := yyparse_eof (by rw [yylex])

/-- **A tree the parser has made is read back from its dump if and only if it fits.** -/
theorem dump_roundTrip_iff {text : CStr} {root : List Entry} (h : openStream text = .ok root) :
    openStream (writeConfig root).1 = .ok root ↔ DumpFits root := by
  have hp : Producible 0 root := openStream_producible h
  have htext : (writeConfig root).1 = (dumpText root 0 root true).1 := by
    rw [writeConfig, dumpSection_eq]
  rw [htext, openStream]
  constructor
  · intro hread
    split_ifs at hread with hsize
    have hcloses : Closes [] [] root := fun w children hw hrun => by
      rw [yyparse_nil] at hrun
      rcases hw with rfl | rfl <;> cases hrun <;> rfl
    have hdumpable : Dumpable root root :=
      dump_exact (show Producible ([] : List (CStr × List Entry)).length root from hp) rfl rfl .nil
        (.inl rfl) hcloses (by rwa [List.append_nil])
    refine ⟨hdumpable, ?_⟩
    rw [← (dump_size hdumpable 0).2]
    exact Nat.le_of_not_lt hsize
  · rintro ⟨hdumpable, hsize⟩
    rw [← (dump_size hdumpable 0).2] at hsize
    rw [if_neg (Nat.not_lt.2 hsize)]
    obtain ⟨-, w, hw, hread⟩ := read_dump hdumpable
      (show Producible ([] : List (CStr × List Entry)).length root from hp) [] (w := .entry)
      (.inl rfl) 0
    have hend := hread []
    rw [List.append_nil, List.nil_append, yyparse_nil] at hend
    rw [hend]
    rcases hw with rfl | rfl <;> rfl

/-- A section with a list. -/
theorem dump_roundTrip_sample :
    DumpFits [.key "k" ["v"],
      .subsection "s" [.key "l@a" ["x", "y"]]] := by
  have hread : openStream "k = \"v\"; s \x7b l@a = (\"x\", \"y\"); \x7d;" =
      .ok [.key "k" ["v"],
        .subsection "s" [.key "l@a" ["x", "y"]]] := by
    with_unfolding_all rfl
  exact (dump_roundTrip_iff hread).1 (by with_unfolding_all rfl)

/-- An empty list is read back as an empty value. -/
theorem dump_not_roundTrip : ¬ ∀ (text : CStr) (root : List Entry), openStream text = .ok root →
    openStream (writeConfig root).1 = .ok root := by
  intro hall
  have hread : openStream "k = ();" = .ok [.key "k" []] := by
    with_unfolding_all rfl
  have hback : openStream (writeConfig [.key "k" []]).1 = .ok [.key "k" [[]]] := by
    with_unfolding_all rfl
  have heq := hback.symm.trans (hall _ _ hread)
  exact absurd (Entry.key.inj (List.cons.inj (Except.ok.inj heq)).1).2 (by decide)

end CodesSim.Config
