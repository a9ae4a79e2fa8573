import CodesSim.Mesh.Router

/-!
# The lists of a router

In every reachable state of a router the pointers of its chunks hold lists (`Router.Lists`), and the
fields of a chunk say in which of them it is (`Router.Ok`): a chunk is pending or parked for one
port and VC, and the parked ones with `inAltQ` are in the alternate queue of the port `altqPort`
too.
-/

namespace CodesSim.Mesh

open Function
open Dll (Links Ends IsList Frame)

/-! ### Lanes -/

/-- The ends of the parked chunks of some ports and VCs are used for an alternate queue instead. -/
def Lane.Valid (p : Param) : Lane → Prop
  | .pending _ _ => True
  | .queued port vc => ¬ p.IsAlt port vc
  | .alt port => p.IsAlt port 0

/-- The list is linked by the second pair of pointers of its chunks. -/
def Lane.isAlt : Lane → Bool
  | .alt _ => true
  | _ => false

namespace Router

section

variable (s : Router) (x : Links ℕ × Ends ℕ) (q q' : Lane)

/-! What a list is made of. -/

@[simp] theorem linksOf_setList_self : (s.setList x q).linksOf q = x.1 := by cases q <;> rfl

@[simp] theorem endsOf_setList_self : (s.setList x q).endsOf q = x.2 := by
  cases q <;> simp [setList, endsOf]

theorem linksOf_congr {q q' : Lane} (h : q.isAlt = q'.isAlt) : s.linksOf q = s.linksOf q' := by
  cases q <;> cases q' <;> first | rfl | cases h

theorem linksOf_setList_of_ne {q q' : Lane} (h : q'.isAlt ≠ q.isAlt) :
    (s.setList x q).linksOf q' = s.linksOf q' := by
  cases q <;> cases q' <;> first | rfl | exact absurd rfl h

theorem linksOf_setList_of_eq {q q' : Lane} (h : q'.isAlt = q.isAlt) :
    (s.setList x q).linksOf q' = x.1 := by
  rw [linksOf_congr _ h, linksOf_setList_self]

theorem endsOf_setList_of_ne {p : Param} {q q' : Lane} (hq : q.Valid p) (hq' : q'.Valid p)
    (h : q' ≠ q) : (s.setList x q).endsOf q' = s.endsOf q' := by
  cases q with
  | pending port vc =>
    cases q' with
    | pending port' vc' =>
      refine update_of_ne (fun hk => h ?_) _ _
      obtain ⟨rfl, rfl⟩ := Prod.mk.inj hk
      rfl
    | queued | alt => rfl
  | queued port vc =>
    cases q' with
    | pending => rfl
    | queued port' vc' =>
      refine update_of_ne (fun hk => h ?_) _ _
      obtain ⟨rfl, rfl⟩ := Prod.mk.inj hk
      rfl
    | alt port' =>
      refine update_of_ne (fun hk => hq ?_) _ _
      obtain ⟨rfl, rfl⟩ := Prod.mk.inj hk
      exact hq'
  | alt port =>
    cases q' with
    | pending => rfl
    | queued port' vc' =>
      refine update_of_ne (fun hk => hq' ?_) _ _
      obtain ⟨rfl, rfl⟩ := Prod.mk.inj hk
      exact hq
    | alt port' =>
      refine update_of_ne (fun hk => h ?_) _ _
      obtain ⟨rfl, -⟩ := Prod.mk.inj hk
      rfl

@[simp] theorem chunks_setList : (s.setList x q).chunks = s.chunks := by cases q <;> rfl

@[simp] theorem vcOccupancy_setList : (s.setList x q).vcOccupancy = s.vcOccupancy := by
  cases q <;> rfl

@[simp] theorem inSendLoop_setList : (s.setList x q).inSendLoop = s.inSendLoop := by
  cases q <;> rfl

@[simp] theorem queuedCount_setList : (s.setList x q).queuedCount = s.queuedCount := by
  cases q <;> rfl

end

/-! ### Lists -/

/-- The pointers of a router hold the lists `L`. -/
structure Lists (p : Param) (s : Router) (L : Lane → List ℕ) : Prop where
  isList : ∀ q, q.Valid p → IsList (s.linksOf q) (s.endsOf q) (L q)
  nil : ∀ q, ¬ q.Valid p → L q = []
  inj : ∀ q q' a, a ∈ L q → a ∈ L q' → q.isAlt = q'.isAlt → q = q'

theorem lists_init (p : Param) : Router.init.Lists p fun _ => [] where
  isList q _ := by cases q <;> exact Dll.isList_empty _
  nil _ _ := rfl
  inj _ _ _ h := (nomatch h)

variable {p : Param} {s s' : Router} {L : Lane → List ℕ} {q : Lane} {a : ℕ}

/-- The rest of a router does not matter. -/
theorem Lists.congr (h : s.Lists p L) (hlinks : s'.links = s.links)
    (halt : s'.altLinks = s.altLinks) (hpending : s'.pendingMsgs = s.pendingMsgs)
    (hqueued : s'.queuedMsgs = s.queuedMsgs) : s'.Lists p L := by
  have hl : ∀ q, s'.linksOf q = s.linksOf q := by
    intro q
    cases q <;> simp only [linksOf, hlinks, halt]
  have he : ∀ q, s'.endsOf q = s.endsOf q := by
    intro q
    cases q <;> simp only [endsOf, hpending, hqueued]
  refine ⟨fun q hq => ?_, h.nil, h.inj⟩
  rw [hl, he]
  exact h.isList q hq

theorem Lists.valid_of_mem (h : s.Lists p L) (ha : a ∈ L q) : q.Valid p := by
  by_contra hq
  rw [h.nil q hq] at ha
  cases ha

theorem Lists.setList (h : s.Lists p L) (hq : q.Valid p) {x : Links ℕ × Ends ℕ} {l t : List ℕ}
    (hlist : IsList x.1 x.2 l) (hframe : Frame (s.linksOf q) x.1 t)
    (ht : ∀ b ∈ t, ∀ q', q'.isAlt = q.isAlt → q' ≠ q → b ∉ L q')
    (hl : ∀ b ∈ l, b ∈ t) : (s.setList x q).Lists p (update L q l) := by
  have hother : ∀ q', q' ≠ q → update L q l q' = L q' :=
    fun q' hq' => update_of_ne hq' _ _
  refine ⟨fun q' hq' => ?_, fun q' hq' => ?_, fun q₁ q₂ b h₁ h₂ halt => ?_⟩
  · by_cases hqq : q' = q
    · subst hqq
      simpa using hlist
    · rw [hother q' hqq, endsOf_setList_of_ne s x hq hq' hqq]
      by_cases halt : q'.isAlt = q.isAlt
      · rw [linksOf_setList_of_eq s x halt]
        have hlist' := h.isList q' hq'
        rw [linksOf_congr s halt] at hlist'
        exact hlist'.congr hframe fun b hb hbt => ht b hbt q' halt hqq hb
      · rw [linksOf_setList_of_ne s x halt]
        exact h.isList q' hq'
  · have hqq : q' ≠ q := fun hqq => hq' (hqq ▸ hq)
    rw [hother q' hqq]
    exact h.nil q' hq'
  · by_cases h1 : q₁ = q <;> by_cases h2 : q₂ = q
    · rw [h1, h2]
    · subst h1
      rw [update_self] at h₁
      rw [hother q₂ h2] at h₂
      exact absurd h₂ (ht b (hl b h₁) q₂ halt.symm h2)
    · subst h2
      rw [update_self] at h₂
      rw [hother q₁ h1] at h₁
      exact absurd h₁ (ht b (hl b h₂) q₁ halt h1)
    · rw [hother q₁ h1] at h₁
      rw [hother q₂ h2] at h₂
      exact h.inj q₁ q₂ b h₁ h₂ halt

/-- The pointers of chunks other than `a` that are in none of the lists are as before. -/
def Untouched (L : Lane → List ℕ) (a : ℕ) (s s' : Router) : Prop :=
  ∀ b, b ≠ a → (∀ q, b ∉ L q) → ∀ q, (s'.linksOf q).next b = (s.linksOf q).next b ∧
    (s'.linksOf q).prev b = (s.linksOf q).prev b

theorem Untouched.setList {x : Links ℕ × Ends ℕ}
    (h : ∀ b, b ≠ a → b ∉ L q → x.1.next b = (s.linksOf q).next b ∧
      x.1.prev b = (s.linksOf q).prev b) : Untouched L a s (s.setList x q) := by
  intro b hb hL q'
  by_cases halt : q'.isAlt = q.isAlt
  · rw [linksOf_setList_of_eq s x halt, linksOf_congr s halt]
    exact h b hb (hL q)
  · rw [linksOf_setList_of_ne s x halt]
    exact ⟨rfl, rfl⟩

theorem Lists.append (h : s.Lists p L) (hq : q.Valid p)
    (ha : ∀ q', q'.isAlt = q.isAlt → a ∉ L q') (hnext : (s.linksOf q).next a = none)
    (hprev : (s.linksOf q).prev a = none) : ∃ x, Dll.append (s.linksOf q) (s.endsOf q) a = some x ∧
      s.append q a = some (s.setList x q) ∧
      (s.setList x q).Lists p (update L q (L q ++ [a])) ∧
      Dll.returnTail x.1 x.2 = some (a, s.linksOf q, s.endsOf q) ∧
      Untouched L a s (s.setList x q) := by
  obtain ⟨lk, e, happ, hlist, hframe, -⟩ := (h.isList q hq).append (ha q rfl) hprev hnext
  refine ⟨(lk, e), happ, by rw [Router.append, happ]; rfl, ?_, ?_,
    .setList fun b hb hbL => hframe b (by simp [hb, hbL])⟩
  · refine h.setList hq hlist hframe (fun b hb q' halt hqq hb' => ?_) fun b hb => ?_
    · rcases List.mem_cons.1 hb with rfl | hb
      · exact ha q' halt hb'
      · exact hqq (h.inj q' q b hb' hb halt)
    · simpa [or_comm] using hb
  · exact Dll.returnTail_append (h.isList q hq) (ha q rfl) hprev happ

theorem Lists.returnHead (h : s.Lists p L) {l : List ℕ} (hl : L q = a :: l) :
    ∃ x, s.returnHead q = some (a, s.setList x q) ∧
      (s.setList x q).Lists p (update L q l) ∧
      Dll.prepend x.1 x.2 a = (s.linksOf q, s.endsOf q) ∧
      x.1.next a = none ∧ x.1.prev a = none ∧ Untouched L a s (s.setList x q) := by
  have hq : q.Valid p := h.valid_of_mem (by simp [hl] : a ∈ L q)
  have hlist := h.isList q hq
  rw [hl] at hlist
  obtain ⟨lk, e, hret, hrest, hframe, hnext, hprev⟩ := hlist.returnHead
  rw [← hl] at hframe
  refine ⟨(lk, e), by rw [Router.returnHead, hret]; rfl, ?_,
    (Dll.prepend_returnHead hlist hret).2, hnext, hprev, .setList fun b _ => hframe b⟩
  refine h.setList hq hrest hframe (fun b hb q' halt hqq hb' => ?_) fun b hb => ?_
  · exact hqq (h.inj q' q b hb' hb halt)
  · rw [hl]
    exact List.mem_cons_of_mem _ hb

theorem Lists.delete (h : s.Lists p L) {l l' : List ℕ} (hl : L q = l ++ a :: l') :
    ∃ x, Dll.delete (s.linksOf q) (s.endsOf q) a = x ∧ s.delete q a = s.setList x q ∧
      (s.setList x q).Lists p (update L q (l ++ l')) ∧
      Dll.putBack x.1 x.2 a = (s.linksOf q, s.endsOf q) ∧ Untouched L a s (s.setList x q) := by
  have hq : q.Valid p := h.valid_of_mem (by simp [hl] : a ∈ L q)
  have hlist := h.isList q hq
  rw [hl] at hlist
  obtain ⟨lk, e, hdel, hrest, hframe⟩ := hlist.delete
  have hmem : ∀ b ∈ l ++ l', b ∈ L q := by
    intro b hb
    rw [hl]
    rcases List.mem_append.1 hb with hb | hb <;> simp [hb]
  refine ⟨(lk, e), hdel, by rw [Router.delete, hdel], ?_, ?_,
    .setList fun b _ => hframe.mono hmem b⟩
  · refine h.setList hq hrest hframe (fun b hb q' halt hqq hb' => ?_) fun b hb => hb
    exact hqq (h.inj q' q b hb' (hmem b hb) halt)
  · have hback := Dll.putBack_delete hlist
    rwa [hdel] at hback

end Router

/-! ### Chunks -/

/-- What the fields of a chunk say about the lists it is in. -/
def Lane.Fits : Lane → Chunk → Prop
  | .pending port vc, c => c.port = port ∧ c.index = vc ∧ c.inAltQ = false
  | .queued port vc, c => c.port = port ∧ c.index = vc
  | .alt port, c => c.inAltQ = true ∧ c.altqPort = port

/-- The lists of a router are `L`, and its chunks are where their fields say. -/
structure Router.Ok (p : Param) (s : Router) (L : Lane → List ℕ) : Prop where
  lists : s.Lists p L
  chunk : ∀ q, ∀ a ∈ L q, ∃ c, s.chunks a = some c ∧ q.Fits c
  altQueued : ∀ {a c port}, a ∈ L (.alt port) → s.chunks a = some c → a ∈ L (.queued c.port c.index)
  queuedAlt : ∀ {a c port vc}, a ∈ L (.queued port vc) → s.chunks a = some c → c.inAltQ = true →
    a ∈ L (.alt c.altqPort)
  unused : ∀ a, s.chunks a = none → ∀ q, (s.linksOf q).next a = none ∧ (s.linksOf q).prev a = none

namespace Router

variable {p : Param} {s s' : Router} {L : Lane → List ℕ} {q : Lane} {a : ℕ} {c : Chunk}

theorem ok_init (p : Param) : Router.init.Ok p fun _ => [] where
  lists := lists_init p
  chunk _ _ h := (nomatch h)
  altQueued h := (nomatch h)
  queuedAlt h := (nomatch h)
  unused a _ q := by cases q <;> exact ⟨rfl, rfl⟩

theorem Ok.congr (h : s.Ok p L) (hchunks : s'.chunks = s.chunks) (hlinks : s'.links = s.links)
    (halt : s'.altLinks = s.altLinks) (hpending : s'.pendingMsgs = s.pendingMsgs)
    (hqueued : s'.queuedMsgs = s.queuedMsgs) : s'.Ok p L := by
  have hl : ∀ q, s'.linksOf q = s.linksOf q := by
    intro q
    cases q <;> simp only [linksOf, hlinks, halt]
  refine ⟨h.lists.congr hlinks halt hpending hqueued, ?_, ?_, ?_, ?_⟩
  · rw [hchunks]
    exact h.chunk
  · rw [hchunks]
    exact h.altQueued
  · rw [hchunks]
    exact h.queuedAlt
  · rw [hchunks]
    intro a ha q
    rw [hl]
    exact h.unused a ha q

theorem Ok.fits (h : s.Ok p L) (ha : a ∈ L q) (hc : s.chunks a = some c) : q.Fits c := by
  obtain ⟨c', hc', hfits⟩ := h.chunk q a ha
  rw [hc] at hc'
  cases hc'
  exact hfits

/-- Unused memory is in no list. -/
theorem Ok.not_mem (h : s.Ok p L) (ha : s.chunks a = none) (q : Lane) : a ∉ L q := by
  intro hmem
  obtain ⟨c, hc, -⟩ := h.chunk q a hmem
  rw [ha] at hc
  cases hc

/-- The pointers of unused memory are reset already. -/
theorem Ok.newChunk_eq (h : s.Ok p L) (ha : s.chunks a = none) (c : Chunk) :
    s.newChunk a c = s.setChunk a (some c) := by
  have hreset : ∀ q, (s.linksOf q).reset a = s.linksOf q := by
    intro q
    obtain ⟨hnext, hprev⟩ := h.unused a ha q
    exact Links.ext (update_eq_self_iff.2 hnext.symm)
      (update_eq_self_iff.2 hprev.symm)
  have h1 : s.links.reset a = s.links := hreset (.pending 0 0)
  have h2 : s.altLinks.reset a = s.altLinks := hreset (.alt 0)
  rw [newChunk, h1, h2]
  rfl

@[simp] theorem linksOf_setChunk (s : Router) (a : ℕ) (c : Option Chunk) (q : Lane) :
    (s.setChunk a c).linksOf q = s.linksOf q := by cases q <;> rfl

@[simp] theorem chunks_setChunk (s : Router) (a : ℕ) (c : Option Chunk) :
    (s.setChunk a c).chunks = update s.chunks a c := rfl

theorem Lists.setChunk (h : s.Lists p L) (a : ℕ) (c : Option Chunk) : (s.setChunk a c).Lists p L :=
  h.congr rfl rfl rfl rfl

theorem Untouched.setChunk (L : Lane → List ℕ) (s : Router) (c : Option Chunk) :
    Untouched L a s (s.setChunk a c) := by
  intro b _ _ q
  rw [linksOf_setChunk]
  exact ⟨rfl, rfl⟩

theorem Untouched.trans {s'' : Router} {L' : Lane → List ℕ} (h : Untouched L a s s')
    (h' : Untouched L' a s' s'') (hL : ∀ q, ∀ b ∈ L' q, b = a ∨ b ∈ L q) : Untouched L a s s'' := by
  intro b hb hbL q
  obtain ⟨h1, h2⟩ := h b hb hbL q
  obtain ⟨h3, h4⟩ := h' b hb (fun q' hbL' => (hL q' b hbL').elim hb (hbL q')) q
  exact ⟨h3.trans h1, h4.trans h2⟩

/-- **One chunk moves.**  Chunk `a` is new or goes from some lists to others; the other chunks stay
where they are. -/
theorem Ok.move {L' : Lane → List ℕ} (h : s.Ok p L) (hlists : s'.Lists p L')
    (hchunks : s'.chunks = update s.chunks a (some c)) (hlinks : Untouched L a s s')
    (hmem : ∀ q b, b ≠ a → (b ∈ L' q ↔ b ∈ L q)) (hself : ∀ q, a ∈ L' q → q.Fits c)
    (halt : ∀ port, a ∈ L' (.alt port) → a ∈ L' (.queued c.port c.index))
    (hqueued : ∀ port vc, a ∈ L' (.queued port vc) → c.inAltQ = true → a ∈ L' (.alt c.altqPort)) :
    s'.Ok p L' := by
  have hother : ∀ b, b ≠ a → s'.chunks b = s.chunks b := by
    intro b hb
    rw [hchunks, update_of_ne hb]
  have hsame : ∀ {c' : Chunk}, s'.chunks a = some c' → c' = c := by
    intro c' hc'
    rw [hchunks, update_self] at hc'
    exact (Option.some.inj hc').symm
  refine ⟨hlists, fun q b hb => ?_, fun {b c' port} hb hc' => ?_, fun {b c' port vc} hb hc'
    hin => ?_, fun b hb q => ?_⟩
  · by_cases hba : b = a
    · subst hba
      exact ⟨c, by rw [hchunks, update_self], hself q hb⟩
    · rw [hother b hba]
      exact h.chunk q b ((hmem q b hba).1 hb)
  · by_cases hba : b = a
    · subst hba
      rw [hsame hc']
      exact halt port hb
    · rw [hother b hba] at hc'
      exact (hmem _ b hba).2 (h.altQueued ((hmem _ b hba).1 hb) hc')
  · by_cases hba : b = a
    · subst hba
      rw [hsame hc'] at hin ⊢
      exact hqueued port vc hb hin
    · rw [hother b hba] at hc'
      exact (hmem _ b hba).2 (h.queuedAlt ((hmem _ b hba).1 hb) hc' hin)
  · have hba : b ≠ a := by
      rintro rfl
      rw [hchunks, update_self] at hb
      cases hb
    rw [hother b hba] at hb
    obtain ⟨h1, h2⟩ := hlinks b hba (h.not_mem hb) q
    obtain ⟨h3, h4⟩ := h.unused b hb q
    exact ⟨h1.trans h3, h2.trans h4⟩

end Router

end CodesSim.Mesh
