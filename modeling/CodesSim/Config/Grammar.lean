import CodesSim.Config.Lexer

/-!
# The parser of the configuration language

The grammar of `configparser.y`, with its actions, and `txtfile_openStream`.

* `Parse` is what the parser has read: the sections that are open, innermost first, each with what
  stands before it, and where in an entry it is.  A key is stored when its semicolumn is read.
* `Reads` says that an open section has certain entries in the end.  What was read never changes
  (`Parse.Extends`), so two results agree wherever one text was read.
* `Producible` are the trees the parser makes (`openStream_producible`).
-/

namespace CodesSim.Config

/-! ### The parser -/

/-- Where in an entry the parser is. -/
inductive Expect where
  /-- Between two entries. -/
  | entry
  /-- Behind a section, where a semicolumn may stand. -/
  | closed
  /-- Behind `IDENTIFIER`. -/
  | afterName (name : CStr)
  /-- Behind `IDENTIFIER EQUAL_TOKEN`. -/
  | value (name : CStr)
  /-- Behind `LOPEN`. -/
  | firstValue (name : CStr)
  /-- Behind a value of a list. -/
  | afterValue (name : CStr) (values : List CStr)
  /-- Behind `KOMMA`. -/
  | nextValue (name : CStr) (values : List CStr)
  /-- Before the last `SEMICOLUMN`. -/
  | endKey (name : CStr) (values : List CStr)

/-- The state of the parser: the open sections, innermost first, with the entries before each, and
the entries of the innermost one. -/
structure Parse where
  outer : List (CStr × List Entry)
  entries : List Entry
  expect : Expect

/-- How parsing fails. -/
inductive ParseError where
  /-- "Config file too large! Not parsing!". -/
  | tooLarge
  /-- "lexer error". -/
  | lexer (e : LexError)
  /-- "Parser error". -/
  | grammar
  | assertion (text : String)
  /-- A write behind `sectionstack`. -/
  | overflow

/-- The size of `sectionstack`. -/
def sectionStackSize : ℕ := 20

/-- `param->maxsize`. -/
def maxValues : ℕ := 1000

/-- `subsection_openaction`. -/
def Parse.openSection (p : Parse) (name : CStr) : Except ParseError Parse :=
  if sectionStackSize ≤ p.outer.length then .error (.assertion "param->stacktop < 20")
  -- the assertion lets the last index through, but what is written is the one behind it
  else if sectionStackSize ≤ p.outer.length + 1 then .error .overflow
  else .ok ⟨(name, p.entries) :: p.outer, [], .entry⟩

/-- `subsection_closeaction`. -/
def Parse.closeSection (p : Parse) : Except ParseError Parse :=
  match p.outer with
  | [] => .error .grammar
  | (name, before) :: outer => .ok ⟨outer, before ++ [.subsection name p.entries], .closed⟩

/-- A value of a list. -/
def Parse.addValue (p : Parse) (name : CStr) (values : List CStr) (value : CStr) :
    Except ParseError Parse :=
  if values.length + 1 < maxValues then
    .ok { p with expect := .afterValue name (values ++ [value]) }
  else .error (.assertion "param->count < param->maxsize")

/-- The parser on a token. -/
def Parse.step (p : Parse) (t : Token) : Except ParseError Parse :=
  match p.expect, t with
  | .entry, .identifier name => .ok { p with expect := .afterName name }
  | .entry, .closeSection => p.closeSection
  | .closed, .identifier name => .ok { p with expect := .afterName name }
  | .closed, .closeSection => p.closeSection
  | .closed, .semicolumn => .ok { p with expect := .entry }
  | .afterName name, .openSection => p.openSection name
  | .afterName name, .equalToken => .ok { p with expect := .value name }
  | .value name, .literalString value => .ok { p with expect := .endKey name [value] }
  | .value name, .lopen => .ok { p with expect := .firstValue name }
  | .firstValue name, .literalString value => p.addValue name [] value
  | .firstValue name, .lclose => .ok { p with expect := .endKey name [] }
  | .afterValue name values, .komma => .ok { p with expect := .nextValue name values }
  | .afterValue name values, .lclose => .ok { p with expect := .endKey name values }
  | .nextValue name values, .literalString value => p.addValue name values value
  | .endKey name values, .semicolumn =>
    .ok { p with entries := p.entries ++ [.key name values], expect := .entry }
  | _, _ => .error .grammar

/-- The parser at the end of the text. -/
def Parse.finish (p : Parse) : Except ParseError (List Entry) :=
  match p.outer, p.expect with
  | [], .entry => .ok p.entries
  | [], .closed => .ok p.entries
  | _, _ => .error .grammar

/-- `cfgp_parse`.  After an error of the lexer it sees the end of the text, and the lexer's error is
the one reported. -/
def yyparse (p : Parse) (text : CStr) : Except ParseError (List Entry) :=
  match _h : yylex text with
  | .eof => p.finish
  | .error e => .error (.lexer e)
  | .token t rest =>
    match p.step t with
    | .error e => .error e
    | .ok p' => yyparse p' rest
termination_by text.length
decreasing_by exact yylex_length _h

/-- `MAX_CONFIG_SIZE`. -/
def maxConfigSize : ℕ := 10 * 1024 * 1024

/-- `txtfile_openStream`: the entries of the root. -/
def openStream (text : CStr) : Except ParseError (List Entry) :=
  if maxConfigSize < text.length then .error .tooLarge else yyparse ⟨[], [], .entry⟩ text

variable {t : Token}

theorem yyparse_token {p : Parse} {text rest : CStr} (h : yylex text = .token t rest) :
    yyparse p text = match p.step t with
      | .error e => .error e
      | .ok p' => yyparse p' rest := by
  rw [yyparse]
  split
  · next heq => rw [h] at heq; cases heq
  · next heq => rw [h] at heq; cases heq
  · next heq =>
    rw [h] at heq
    cases heq
    rfl

variable {text : CStr}

theorem yyparse_eof {p : Parse} (h : yylex text = .eof) : yyparse p text = p.finish := by
  rw [yyparse]
  split
  · rfl
  · next heq => rw [h] at heq; cases heq
  · next heq => rw [h] at heq; cases heq

theorem yyparse_error {p : Parse} {e : LexError} (h : yylex text = .error e) :
    yyparse p text = .error (.lexer e) := by
  rw [yyparse]
  split
  · next heq => rw [h] at heq; cases heq
  · next heq =>
    rw [h] at heq
    cases heq
    rfl
  · next heq => rw [h] at heq; cases heq

variable {p p' : Parse}

theorem yyparse_step {rest : CStr} (h : yylex text = .token t rest) (hstep : p.step t = .ok p') :
    yyparse p text = yyparse p' rest := by
  rw [yyparse_token h, hstep]

variable {root : List Entry}

theorem yyparse_ok (h : yyparse p text = .ok root) : (yylex text = .eof ∧ p.finish = .ok root) ∨
      ∃ t rest p', yylex text = .token t rest ∧ p.step t = .ok p' ∧ yyparse p' rest = .ok root := by
  cases hlex : yylex text with
  | eof =>
    rw [yyparse] at h
    split at h
    · exact .inl ⟨rfl, h⟩
    · next heq => rw [hlex] at heq; cases heq
    · next heq => rw [hlex] at heq; cases heq
  | error e =>
    rw [yyparse] at h
    split at h
    · next heq => rw [hlex] at heq; cases heq
    · cases h
    · next heq => rw [hlex] at heq; cases heq
  | token t rest =>
    rw [yyparse_token hlex] at h
    cases hstep : p.step t with
    | error e => rw [hstep] at h; cases h
    | ok p' =>
      rw [hstep] at h
      exact .inr ⟨t, rest, p', rfl, hstep, h⟩

/-- **What every step keeps holds at the end.** -/
theorem yyparse_induction {P : Parse → Prop}
    (hstep : ∀ {p p' : Parse} {t : Token}, P p → t.Wf → p.step t = .ok p' → P p')
    (hp : P p) (h : yyparse p text = .ok root) : ∃ p', P p' ∧ p'.finish = .ok root := by
  induction hlen : text.length using Nat.strong_induction_on generalizing p text with
  | _ n ih =>
    rcases yyparse_ok h with ⟨-, hfinish⟩ | ⟨t, rest, p', hlex, hnext, hrest⟩
    · exact ⟨p, hp, hfinish⟩
    · exact ih _ (hlen ▸ yylex_length hlex) (hstep hp (yylex_wf hlex) hnext) hrest rfl

/-! ### What was read stays -/

/-- The innermost of the open sections has these entries in the end. -/
def Reads : List (CStr × List Entry) → List Entry → List Entry → Prop
  | [], children, root => children = root
  | (name, before) :: outer, children, root =>
    ∃ after, Reads outer (before ++ .subsection name children :: after) root

theorem Reads.unique {outer : List (CStr × List Entry)} {children children' : List Entry}
    (h : Reads outer children root) (h' : Reads outer children' root) : children = children' := by
  induction outer generalizing children children' with
  | nil => exact h.trans h'.symm
  | cons x outer ih =>
    obtain ⟨after, h⟩ := h
    obtain ⟨after', h'⟩ := h'
    have htail := List.append_cancel_left (ih h h')
    exact (Entry.subsection.inj (List.cons.inj htail).1).2

/-- The result has everything that was read. -/
def Parse.Extends (p : Parse) (root : List Entry) : Prop :=
  match p.expect with
  | .endKey name values => ∃ more, Reads p.outer (p.entries ++ .key name values :: more) root
  | .afterValue name values =>
    ∃ vs more, Reads p.outer (p.entries ++ .key name (values ++ vs) :: more) root
  | .nextValue name values =>
    ∃ vs more, Reads p.outer (p.entries ++ .key name (values ++ vs) :: more) root
  | _ => ∃ more, Reads p.outer (p.entries ++ more) root

theorem Parse.Extends.of_close (hclose : p.closeSection = .ok p')
    (h : p'.Extends root) : Reads p.outer p.entries root := by
  obtain ⟨outer, entries, expect⟩ := p
  cases outer with
  | nil => cases hclose
  | cons x outer =>
    obtain ⟨name, before⟩ := x
    cases hclose
    obtain ⟨more, h⟩ := h
    rw [List.append_assoc] at h
    exact ⟨more, h⟩

variable {name : CStr}

theorem Parse.Extends.of_open (hopen : p.openSection name = .ok p') (h : p'.Extends root) :
    ∃ more, Reads p.outer (p.entries ++ more) root := by
  unfold Parse.openSection at hopen
  split_ifs at hopen
  cases hopen
  obtain ⟨children, more, h⟩ := h
  exact ⟨_, h⟩

theorem Parse.Extends.of_addValue {value : CStr} {values : List CStr}
    (hadd : p.addValue name values value = .ok p') (h : p'.Extends root) :
    ∃ vs more, Reads p.outer (p.entries ++ .key name (values ++ vs) :: more) root := by
  unfold Parse.addValue at hadd
  split_ifs at hadd
  cases hadd
  obtain ⟨vs, more, h⟩ := h
  rw [List.append_assoc] at h
  exact ⟨value :: vs, more, h⟩

theorem Parse.Extends.of_step
    (hstep : p.step t = .ok p') (h : p'.Extends root) : p.Extends root := by
  obtain ⟨outer, entries, expect⟩ := p
  cases expect with
  | entry =>
    cases t with
    | identifier name => cases hstep; exact h
    | closeSection => exact ⟨[], (List.append_nil entries).symm ▸ h.of_close hstep⟩
    | _ => cases hstep
  | closed =>
    cases t with
    | identifier name => cases hstep; exact h
    | closeSection => exact ⟨[], (List.append_nil entries).symm ▸ h.of_close hstep⟩
    | semicolumn => cases hstep; exact h
    | _ => cases hstep
  | afterName name =>
    cases t with
    | openSection => exact h.of_open hstep
    | equalToken => cases hstep; exact h
    | _ => cases hstep
  | value name =>
    cases t with
    | literalString value =>
      cases hstep
      obtain ⟨more, h⟩ := h
      exact ⟨_, h⟩
    | lopen => cases hstep; exact h
    | _ => cases hstep
  | firstValue name =>
    cases t with
    | literalString value =>
      obtain ⟨vs, more, h⟩ := h.of_addValue hstep
      exact ⟨_, h⟩
    | lclose =>
      cases hstep
      obtain ⟨more, h⟩ := h
      exact ⟨_, h⟩
    | _ => cases hstep
  | afterValue name values =>
    cases t with
    | komma => cases hstep; exact h
    | lclose =>
      cases hstep
      obtain ⟨more, h⟩ := h
      exact ⟨[], more, (List.append_nil values).symm ▸ h⟩
    | _ => cases hstep
  | nextValue name values =>
    cases t with
    | literalString value => exact h.of_addValue hstep
    | _ => cases hstep
  | endKey name values =>
    cases t with
    | semicolumn =>
      cases hstep
      obtain ⟨more, h⟩ := h
      rw [List.append_assoc] at h
      exact ⟨more, h⟩
    | _ => cases hstep

theorem Parse.Extends.of_finish (h : p.finish = .ok root) : p.Extends root := by
  obtain ⟨outer, entries, expect⟩ := p
  cases outer with
  | cons x outer => cases h
  | nil =>
    cases expect with
    | entry => cases h; exact ⟨[], List.append_nil entries⟩
    | closed => cases h; exact ⟨[], List.append_nil entries⟩
    | _ => cases h

/-- **What was read is in the result.** -/
theorem yyparse_extends (h : yyparse p text = .ok root) : p.Extends root := by
  induction hlen : text.length using Nat.strong_induction_on generalizing p text with
  | _ n ih =>
    rcases yyparse_ok h with ⟨-, hfinish⟩ | ⟨t, rest, p', hlex, hnext, hrest⟩
    · exact .of_finish hfinish
    · exact .of_step hnext (ih _ (hlen ▸ yylex_length hlex) hrest rfl)

/-! ### The trees the parser makes -/

/-- Entries the parser can make with a number of open sections around them. -/
inductive Producible : ℕ → List Entry → Prop
  | nil {k : ℕ} : Producible k []
  | key {k : ℕ} {name : CStr} {values : List CStr} {es : List Entry} (hname : IsId name)
      (hcount : values.length < maxValues) (hvalues : ∀ v ∈ values, IsLiteral v)
      (hes : Producible k es) : Producible k (.key name values :: es)
  | subsection {k : ℕ} {name : CStr} {children es : List Entry} (hname : IsId name)
      (hdepth : k + 1 < sectionStackSize) (hchildren : Producible (k + 1) children)
      (hes : Producible k es) : Producible k (.subsection name children :: es)

theorem Producible.append {k : ℕ} {es es' : List Entry} (h : Producible k es)
    (h' : Producible k es') : Producible k (es ++ es') := by
  induction h with
  | nil => exact h'
  | key hname hcount hvalues _ ih => exact .key hname hcount hvalues (ih h')
  | subsection hname hdepth hchildren _ _ ih => exact .subsection hname hdepth hchildren (ih h')

/-- The names and values the parser holds fit, and so do the entries. -/
def Expect.Wf : Expect → Prop
  | .entry => True
  | .closed => True
  | .afterName name => IsId name
  | .value name => IsId name
  | .firstValue name => IsId name
  | .afterValue name values => IsId name ∧ values.length < maxValues ∧ ∀ v ∈ values, IsLiteral v
  | .nextValue name values => IsId name ∧ values.length < maxValues ∧ ∀ v ∈ values, IsLiteral v
  | .endKey name values => IsId name ∧ values.length < maxValues ∧ ∀ v ∈ values, IsLiteral v

/-- The entries before each of the open sections. -/
def OuterWf : List (CStr × List Entry) → Prop
  | [] => True
  | (name, before) :: outer =>
    IsId name ∧ outer.length + 1 < sectionStackSize ∧ Producible outer.length before ∧ OuterWf outer

structure Parse.Wf (p : Parse) : Prop where
  outer : OuterWf p.outer
  entries : Producible p.outer.length p.entries
  expect : p.expect.Wf

theorem Parse.Wf.closeSection (h : p.Wf) (hclose : p.closeSection = .ok p') : p'.Wf := by
  obtain ⟨outer, entries, expect⟩ := p
  cases outer with
  | nil => cases hclose
  | cons x outer =>
    obtain ⟨name, before⟩ := x
    cases hclose
    obtain ⟨hname, hdepth, hbefore, houter⟩ := h.outer
    exact ⟨houter, hbefore.append (.subsection hname hdepth h.entries .nil), trivial⟩

theorem Parse.Wf.openSection (h : p.Wf) (hname : IsId name)
    (hopen : p.openSection name = .ok p') : p'.Wf := by
  unfold Parse.openSection at hopen
  split_ifs at hopen with hassert hdepth
  cases hopen
  exact ⟨⟨hname, Nat.lt_of_not_le hdepth, h.entries, h.outer⟩, .nil, trivial⟩

theorem Parse.Wf.addValue {value : CStr} {values : List CStr} (h : p.Wf)
    (hname : IsId name) (hvalues : ∀ v ∈ values, IsLiteral v) (hvalue : IsLiteral value)
    (hadd : p.addValue name values value = .ok p') : p'.Wf := by
  unfold Parse.addValue at hadd
  split_ifs at hadd with hcount
  cases hadd
  refine ⟨h.outer, h.entries, hname, ?_, fun v hv => ?_⟩
  · rwa [List.length_append]
  · rcases List.mem_append.1 hv with hold | hnew
    · exact hvalues v hold
    · rw [List.mem_singleton.1 hnew]
      exact hvalue

/-- A step keeps names, values and nesting within their bounds. -/
theorem Parse.Wf.step (h : p.Wf) (ht : t.Wf) (hstep : p.step t = .ok p') : p'.Wf := by
  have hexpect := h.expect
  obtain ⟨outer, entries, expect⟩ := p
  cases expect with
  | entry =>
    cases t with
    | identifier name => cases hstep; exact ⟨h.outer, h.entries, ht⟩
    | closeSection => exact h.closeSection hstep
    | _ => cases hstep
  | closed =>
    cases t with
    | identifier name => cases hstep; exact ⟨h.outer, h.entries, ht⟩
    | closeSection => exact h.closeSection hstep
    | semicolumn => cases hstep; exact ⟨h.outer, h.entries, trivial⟩
    | _ => cases hstep
  | afterName name =>
    cases t with
    | openSection => exact h.openSection hexpect hstep
    | equalToken => cases hstep; exact ⟨h.outer, h.entries, hexpect⟩
    | _ => cases hstep
  | value name =>
    cases t with
    | literalString value =>
      cases hstep
      refine ⟨h.outer, h.entries, hexpect, (by decide : 1 < maxValues), fun v hv => ?_⟩
      rw [List.mem_singleton.1 hv]
      exact ht
    | lopen => cases hstep; exact ⟨h.outer, h.entries, hexpect⟩
    | _ => cases hstep
  | firstValue name =>
    cases t with
    | literalString value =>
      exact h.addValue hexpect (fun v hv => absurd hv List.not_mem_nil) ht hstep
    | lclose =>
      cases hstep
      exact ⟨h.outer, h.entries, hexpect, by decide, fun v hv => absurd hv List.not_mem_nil⟩
    | _ => cases hstep
  | afterValue name values =>
    cases t with
    | komma => cases hstep; exact ⟨h.outer, h.entries, hexpect⟩
    | lclose => cases hstep; exact ⟨h.outer, h.entries, hexpect⟩
    | _ => cases hstep
  | nextValue name values =>
    cases t with
    | literalString value => exact h.addValue hexpect.1 hexpect.2.2 ht hstep
    | _ => cases hstep
  | endKey name values =>
    cases t with
    | semicolumn =>
      cases hstep
      obtain ⟨hname, hcount, hvalues⟩ := hexpect
      exact ⟨h.outer, h.entries.append (.key hname hcount hvalues .nil), trivial⟩
    | _ => cases hstep

/-- **The trees the parser makes** have names, values and nesting within the bounds. -/
theorem openStream_producible (h : openStream text = .ok root) : Producible 0 root := by
  unfold openStream at h
  split_ifs at h
  have hstart : Parse.Wf ⟨[], [], .entry⟩ := ⟨trivial, .nil, trivial⟩
  obtain ⟨p, hp, hfinish⟩ := yyparse_induction (fun hp ht hstep => hp.step ht hstep) hstart h
  obtain ⟨outer, entries, expect⟩ := p
  cases outer with
  | cons x outer => cases hfinish
  | nil =>
    cases expect with
    | entry => cases hfinish; exact hp.entries
    | closed => cases hfinish; exact hp.entries
    | _ => cases hfinish

end CodesSim.Config
