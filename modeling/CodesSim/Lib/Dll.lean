import Mathlib.Data.List.Induction
import Mathlib.Data.List.Nodup

/-!
# Doubly linked lists

Elements are linked with their neighbours by pointers (`Links`), and a list is held by pointers to
its ends (`Ends`).  Many lists may share the links, as long as they have no elements in common.
A pointer that is not followed any more may be stale: `delete` leaves the pointers of the element it
takes out, and `putBack` relies on them.

* `IsList lk e l` : the ends `e` hold the list `l`;
* `IsList.append`, `IsList.returnHead`, ... : what the operations do to the list;
* `returnTail_append`, `prepend_returnHead`, `putBack_delete` : what one operation does another one
  undoes, pointer for pointer.
-/

namespace CodesSim.Dll

open Function

variable {α : Type*}

/-- The pointers from an element to its neighbours. -/
@[ext]
structure Links (α : Type*) where
  next : α → Option α
  prev : α → Option α

/-- The pointers to the ends of a list. -/
@[ext]
structure Ends (α : Type*) where
  head : Option α
  tail : Option α

def Links.empty : Links α := ⟨fun _ => none, fun _ => none⟩

def Ends.empty : Ends α := ⟨none, none⟩

/-! ### Operations -/

section

variable [DecidableEq α] (lk : Links α) (e : Ends α) (a : α)

/-- `f` with another value at an element, if there is one. -/
def setAt (f : α → Option α) : Option α → Option α → α → Option α
  | none, _ => f
  | some b, v => update f b v

@[simp] theorem setAt_none (f : α → Option α) (v : Option α) : setAt f none v = f := rfl

@[simp] theorem setAt_some (f : α → Option α) (b : α) (v : Option α) :
    setAt f (some b) v = update f b v := rfl

/-- The pointers of an element are reset. -/
def Links.reset : Links α := ⟨update lk.next a none, update lk.prev a none⟩

/-- Put an element at the end; `none` if a list that has a head has no tail. -/
def append : Option (Links α × Ends α) :=
  match e.head with
  | none => some (lk, ⟨some a, some a⟩)
  | some h => e.tail.map fun t =>
    (⟨update lk.next t (some a), update lk.prev a (some t)⟩, ⟨some h, some a⟩)

/-- Put an element in front. -/
def prepend : Links α × Ends α :=
  match e.head with
  | none => (lk, ⟨some a, some a⟩)
  | some h =>
    (⟨update lk.next a (some h), update lk.prev h (some a)⟩, ⟨some a, e.tail⟩)

/-- Take the first element; `none` if there is none. -/
def returnHead : Option (α × Links α × Ends α) :=
  e.head.map fun h => match lk.next h with
    | some n =>
      (h, ⟨update lk.next h none, update lk.prev n none⟩, ⟨some n, e.tail⟩)
    | none => (h, lk, ⟨none, none⟩)

/-- Take the last element; `none` if there is none. -/
def returnTail : Option (α × Links α × Ends α) :=
  e.tail.map fun t => match lk.prev t with
    | some b =>
      (t, ⟨update lk.next b none, update lk.prev t none⟩, ⟨e.head, some b⟩)
    | none => (t, lk, ⟨none, none⟩)

/-- Take an element out of the list that it is in. -/
def delete : Links α × Ends α :=
  (⟨setAt lk.next (lk.prev a) (lk.next a), setAt lk.prev (lk.next a) (lk.prev a)⟩,
    ⟨if e.head = some a then lk.next a else e.head,
      if e.tail = some a then lk.prev a else e.tail⟩)

/-- Put an element back between the neighbours that its pointers still name. -/
def putBack : Links α × Ends α :=
  (⟨setAt lk.next (lk.prev a) (some a), setAt lk.prev (lk.next a) (some a)⟩,
    ⟨if e.head = lk.next a then some a else e.head,
      if e.tail = lk.prev a then some a else e.tail⟩)

end

/-! ### Segments -/

/-- The elements of a list are linked with each other; the first one points back to `p`, the last
one points on to `q`. -/
def Segment (lk : Links α) : Option α → List α → Option α → Prop
  | _, [], _ => True
  | p, a :: l, q => lk.prev a = p ∧ lk.next a = l.head?.or q ∧ Segment lk (some a) l q

section

variable {lk lk' : Links α} {p q : Option α} {l l' : List α} {a b : α}

@[simp] theorem segment_nil : Segment lk p [] q := trivial

@[simp] theorem segment_cons : Segment lk p (a :: l) q ↔
    lk.prev a = p ∧ lk.next a = l.head?.or q ∧ Segment lk (some a) l q := Iff.rfl

theorem segment_append : Segment lk p (l ++ l') q ↔
    Segment lk p l (l'.head?.or q) ∧ Segment lk (l.getLast?.or p) l' q := by
  induction l generalizing p with
  | nil => simp
  | cons a l ih =>
    have hhead : (l ++ l').head?.or q = l.head?.or (l'.head?.or q) := by
      rw [List.head?_append, Option.or_assoc]
    have hlast : ((a :: l).getLast?.or p) = l.getLast?.or (some a) := by
      rw [List.getLast?_cons]
      cases l.getLast? <;> rfl
    rw [List.cons_append, segment_cons, segment_cons, ih, hhead, hlast]
    tauto

/-- Only the pointers of the elements matter. -/
theorem Segment.congr (h : Segment lk p l q) (hnext : ∀ a ∈ l, lk'.next a = lk.next a)
    (hprev : ∀ a ∈ l, lk'.prev a = lk.prev a) : Segment lk' p l q := by
  induction l generalizing p with
  | nil => trivial
  | cons a l ih =>
    obtain ⟨h1, h2, h3⟩ := h
    refine ⟨(hprev a List.mem_cons_self).trans h1, (hnext a List.mem_cons_self).trans h2, ?_⟩
    exact ih h3 (fun b hb => hnext b (List.mem_cons_of_mem _ hb))
      fun b hb => hprev b (List.mem_cons_of_mem _ hb)

variable [DecidableEq α]

theorem Segment.setNext (h : Segment lk p l q) (hnodup : l.Nodup) (q' : Option α) :
    Segment ⟨setAt lk.next l.getLast? q', lk.prev⟩ p l q' := by
  cases l using List.reverseRecOn with
  | nil => trivial
  | append_singleton l b =>
    rw [segment_append] at h ⊢
    have hb : b ∉ l := by
      intro hb
      exact (List.nodup_append.1 hnodup).2.2 b hb b (List.mem_singleton_self b) rfl
    refine ⟨?_, ?_⟩
    · refine (h.1.congr (fun a ha => ?_) fun a _ => rfl)
      have hne : a ≠ b := fun hab => hb (hab ▸ ha)
      simp [hne]
    · simpa using h.2.1

/-- The first element is made to point elsewhere. -/
theorem Segment.setPrev (h : Segment lk p l q) (hnodup : l.Nodup) (p' : Option α) :
    Segment ⟨lk.next, setAt lk.prev l.head? p'⟩ p' l q := by
  cases l with
  | nil => trivial
  | cons a l =>
    obtain ⟨-, h2, h3⟩ := h
    refine ⟨by simp, h2, h3.congr (fun b _ => rfl) fun b hb => ?_⟩
    have hne : b ≠ a := fun hab => (List.nodup_cons.1 hnodup).1 (hab ▸ hb)
    simp [hne]

omit [DecidableEq α] in
theorem Segment.next_last (h : Segment lk p (l ++ [a]) q) : lk.next a = q := by
  have := (segment_append.1 h).2.2.1
  simpa using this

end

/-! ### Lists -/

/-- The ends `e` hold the list `l`. -/
structure IsList (lk : Links α) (e : Ends α) (l : List α) : Prop where
  head : e.head = l.head?
  tail : e.tail = l.getLast?
  segment : Segment lk none l none
  nodup : l.Nodup

theorem isList_empty (lk : Links α) : IsList lk .empty [] := ⟨rfl, rfl, trivial, List.nodup_nil⟩

/-- The links change only at elements of `l`. -/
def Frame (lk lk' : Links α) (l : List α) : Prop :=
  ∀ a ∉ l, lk'.next a = lk.next a ∧ lk'.prev a = lk.prev a

theorem Frame.refl (lk : Links α) (l : List α) : Frame lk lk l := fun _ _ => ⟨rfl, rfl⟩

theorem Frame.mono {lk lk' : Links α} {l l' : List α} (h : Frame lk lk' l) (hl : ∀ a ∈ l, a ∈ l') :
    Frame lk lk' l' := fun a ha => h a fun hal => ha (hl a hal)

section

variable {lk lk' : Links α} {e e' : Ends α} {l l' : List α} {a b : α}

theorem IsList.congr (h : IsList lk e l) (hf : Frame lk lk' l') (hl : ∀ a ∈ l, a ∉ l') :
    IsList lk' e l :=
  ⟨h.head, h.tail, h.segment.congr (fun a ha => (hf a (hl a ha)).1)
    fun a ha => (hf a (hl a ha)).2, h.nodup⟩

theorem IsList.head_eq_none (h : IsList lk e l) : e.head = none ↔ l = [] := by
  rw [h.head, List.head?_eq_none_iff]

theorem IsList.prev_of_mem (h : IsList lk e (l ++ a :: l')) :
    lk.prev a = l.getLast? ∧ lk.next a = l'.head? := by
  have hseg := (segment_append.1 h.segment).2
  exact ⟨by simpa using hseg.1, by simpa using hseg.2.1⟩

variable [DecidableEq α]

/-! What the operations do. -/

theorem IsList.append (h : IsList lk e l) (ha : a ∉ l) (hprev : lk.prev a = none)
    (hnext : lk.next a = none) : ∃ lk' e', append lk e a = some (lk', e') ∧
      IsList lk' e' (l ++ [a]) ∧ Frame lk lk' (a :: l) ∧ lk'.next a = none := by
  have hnodup : (l ++ [a]).Nodup := by
    rw [List.nodup_append]
    exact ⟨h.nodup, List.nodup_singleton a, fun b hb c hc => by
      rw [List.mem_singleton.1 hc]
      exact fun hba => ha (hba ▸ hb)⟩
  cases l using List.reverseRecOn with
  | nil =>
    have hhead : e.head = none := h.head
    refine ⟨lk, ⟨some a, some a⟩, by simp [Dll.append, hhead], ⟨rfl, rfl, ?_, hnodup⟩,
      Frame.refl lk _, hnext⟩
    simp [hprev, hnext]
  | append_singleton l t =>
    obtain ⟨x, hx⟩ : ∃ x, e.head = some x := by
      rw [h.head]
      exact Option.isSome_iff_exists.1 (by simp)
    have htail : e.tail = some t := by rw [h.tail, List.getLast?_concat]
    have hta : t ≠ a := fun hta => ha (by simp [hta])
    refine ⟨⟨update lk.next t (some a), update lk.prev a (some t)⟩,
      ⟨some x, some a⟩, by simp [Dll.append, hx, htail], ⟨?_, by simp, ?_, hnodup⟩,
      fun b hb => ?_, by simp [update_of_ne hta.symm, hnext]⟩
    · rw [← hx, h.head]
      simp [List.head?_append]
    · have hseg := h.segment.setNext h.nodup (some a)
      rw [List.getLast?_concat, setAt_some] at hseg
      refine segment_append.2 ⟨hseg.congr (fun b _ => rfl) fun b hb => ?_, ?_⟩
      · have hba : b ≠ a := fun hba => ha (hba ▸ hb)
        exact update_of_ne hba _ _
      · simp [update_of_ne hta.symm, hnext]
    · have hbt : b ≠ t := fun hbt => hb (by simp [hbt])
      have hba : b ≠ a := fun hba => hb (by simp [hba])
      simp [hbt, hba]

theorem IsList.prepend (h : IsList lk e l) (ha : a ∉ l) (hprev : lk.prev a = none)
    (hnext : lk.next a = none) : ∃ lk' e', prepend lk e a = (lk', e') ∧ IsList lk' e' (a :: l) ∧
      Frame lk lk' (a :: l) := by
  have hnodup : (a :: l).Nodup := List.nodup_cons.2 ⟨ha, h.nodup⟩
  cases l with
  | nil =>
    have hhead : e.head = none := h.head
    refine ⟨lk, ⟨some a, some a⟩, by simp [Dll.prepend, hhead], ⟨rfl, rfl, ?_, hnodup⟩,
      Frame.refl lk _⟩
    simp [hprev, hnext]
  | cons n l =>
    have hhead : e.head = some n := h.head
    have hna : n ≠ a := fun hna => ha (by simp [hna])
    refine ⟨⟨update lk.next a (some n), update lk.prev n (some a)⟩,
      ⟨some a, e.tail⟩, by simp [Dll.prepend, hhead], ⟨rfl, h.tail, ⟨?_, by simp, ?_⟩, hnodup⟩,
      fun b hb => ?_⟩
    · simpa [update_of_ne hna.symm] using hprev
    · have hseg := h.segment.setPrev h.nodup (some a)
      refine hseg.congr (fun b hb => ?_) fun b _ => rfl
      have hba : b ≠ a := fun hba => ha (hba ▸ hb)
      exact update_of_ne hba _ _
    · have hba : b ≠ a := fun hba => hb (by simp [hba])
      have hbn : b ≠ n := fun hbn => hb (by simp [hbn])
      simp [hba, hbn]

theorem IsList.returnHead (h : IsList lk e (a :: l)) : ∃ lk' e',
    returnHead lk e = some (a, lk', e') ∧ IsList lk' e' l ∧ Frame lk lk' (a :: l) ∧
      lk'.next a = none ∧ lk'.prev a = none := by
  obtain ⟨hal, hnodup⟩ := List.nodup_cons.1 h.nodup
  have hhead : e.head = some a := h.head
  have hprev : lk.prev a = none := h.segment.1
  cases l with
  | nil =>
    have hnext : lk.next a = none := h.segment.2.1
    refine ⟨lk, ⟨none, none⟩, by simp [Dll.returnHead, hhead, hnext], isList_empty lk,
      Frame.refl lk _, hnext, hprev⟩
  | cons n l =>
    have hnext : lk.next a = some n := h.segment.2.1
    have hna : n ≠ a := fun hna => hal (by simp [hna])
    refine ⟨⟨update lk.next a none, update lk.prev n none⟩, ⟨some n, e.tail⟩,
      by simp [Dll.returnHead, hhead, hnext], ⟨rfl, ?_, ?_, hnodup⟩, fun b hb => ?_, by simp,
      by simp [update_of_ne hna.symm, hprev]⟩
    · exact h.tail
    · have hseg := Segment.setPrev h.segment.2.2 hnodup none
      refine hseg.congr (fun b hb => ?_) fun b _ => rfl
      have hba : b ≠ a := fun hba => hal (hba ▸ hb)
      exact update_of_ne hba _ _
    · have hba : b ≠ a := fun hba => hb (by simp [hba])
      have hbn : b ≠ n := fun hbn => hb (by simp [hbn])
      simp [hba, hbn]

theorem IsList.returnTail (h : IsList lk e (l ++ [a])) : ∃ lk' e',
    returnTail lk e = some (a, lk', e') ∧ IsList lk' e' l ∧ Frame lk lk' (l ++ [a]) ∧
      lk'.next a = none ∧ lk'.prev a = none := by
  have htail : e.tail = some a := by rw [h.tail, List.getLast?_concat]
  have hnext : lk.next a = none := h.segment.next_last
  have hprev : lk.prev a = l.getLast? := h.prev_of_mem.1
  obtain ⟨hl, -, hdisj⟩ := List.nodup_append.1 h.nodup
  cases l using List.reverseRecOn with
  | nil =>
    have hprev : lk.prev a = none := hprev
    exact ⟨lk, ⟨none, none⟩, by simp [Dll.returnTail, htail, hprev], isList_empty lk,
      Frame.refl lk _, hnext, hprev⟩
  | append_singleton l b =>
    rw [List.getLast?_concat] at hprev
    have hba : b ≠ a := hdisj b (by simp) a (by simp)
    refine ⟨⟨update lk.next b none, update lk.prev a none⟩, ⟨e.head, some b⟩,
      by simp [Dll.returnTail, htail, hprev], ⟨?_, by simp, ?_, hl⟩, fun c hc => ?_, ?_, by simp⟩
    · rw [h.head, List.head?_append_of_ne_nil _ (by simp)]
    · have hseg := (segment_append.1 h.segment).1.setNext hl none
      rw [List.getLast?_concat] at hseg
      refine hseg.congr (fun c _ => rfl) fun c hc => ?_
      have hca : c ≠ a := hdisj c hc a (by simp)
      exact update_of_ne hca _ _
    · have hcb : c ≠ b := fun hcb => hc (by simp [hcb])
      have hca : c ≠ a := fun hca => hc (by simp [hca])
      simp [hcb, hca]
    · simpa [update_of_ne hba.symm] using hnext

theorem IsList.delete (h : IsList lk e (l ++ a :: l')) : ∃ lk' e', delete lk e a = (lk', e') ∧
    IsList lk' e' (l ++ l') ∧ Frame lk lk' (l ++ l') := by
  obtain ⟨hprev, hnext⟩ := h.prev_of_mem
  obtain ⟨hl, hal', hdisj⟩ := List.nodup_append.1 h.nodup
  obtain ⟨ha, hl'⟩ := List.nodup_cons.1 hal'
  have hseg := segment_append.1 h.segment
  refine ⟨_, _, rfl, ⟨?_, ?_, ?_, ?_⟩, fun b hb => ⟨?_, ?_⟩⟩
  · cases l with
    | nil => simp [h.head, hnext]
    | cons b l =>
      have hba : b ≠ a := fun hba => hdisj b List.mem_cons_self a List.mem_cons_self hba
      simp [h.head, hba]
  · cases l' using List.reverseRecOn with
    | nil => simp [h.tail, hprev]
    | append_singleton l' b =>
      have hba : b ≠ a := fun hba => ha (by simp [hba])
      have htail : e.tail = some b := by
        rw [h.tail, ← List.cons_append, ← List.append_assoc, List.getLast?_concat]
      rw [← List.append_assoc, List.getLast?_concat]
      simp [htail, hba]
  · rw [hprev, hnext]
    refine segment_append.2 ⟨?_, ?_⟩
    · have h1 := hseg.1.setNext hl l'.head?
      rw [Option.or_none]
      refine h1.congr (fun b _ => rfl) fun b hb => ?_
      cases l' with
      | nil => rfl
      | cons n l' =>
        exact update_of_ne (fun hbn => hdisj b hb n (by simp) hbn) _ _
    · have h2 := Segment.setPrev hseg.2.2.2 hl' l.getLast?
      rw [Option.or_none]
      refine h2.congr (fun b hb => ?_) fun b _ => rfl
      cases l using List.reverseRecOn with
      | nil => rfl
      | append_singleton l t =>
        rw [List.getLast?_concat, setAt_some]
        exact update_of_ne (fun hbt => hdisj t (by simp) b (by simp [hb]) hbt.symm) _ _
  · exact List.nodup_append.2 ⟨hl, hl', fun b hb c hc => hdisj b hb c (by simp [hc])⟩
  · rw [hprev, hnext]
    cases l using List.reverseRecOn with
    | nil => rfl
    | append_singleton l t =>
      have hbt : b ≠ t := fun hbt => hb (by simp [hbt])
      simp [hbt]
  · rw [hprev, hnext]
    cases l' with
    | nil => rfl
    | cons n l' =>
      have hbn : b ≠ n := fun hbn => hb (by simp [hbn])
      simp [hbn]

/-! What the operations undo. -/

/-- An element that was put at the end is taken away again. -/
theorem returnTail_append (h : IsList lk e l) (ha : a ∉ l) (hprev : lk.prev a = none)
    (happ : append lk e a = some (lk', e')) : returnTail lk' e' = some (a, lk, e) := by
  cases l using List.reverseRecOn with
  | nil =>
    have hhead : e.head = none := h.head
    have htail : e.tail = none := h.tail
    obtain ⟨rfl, rfl⟩ : lk = lk' ∧ (⟨some a, some a⟩ : Ends α) = e' := by
      simpa [append, hhead] using happ
    have he : e = ⟨none, none⟩ := Ends.ext hhead htail
    simp [returnTail, hprev, he]
  | append_singleton l t =>
    obtain ⟨x, hx⟩ : ∃ x, e.head = some x := by
      rw [h.head]
      exact Option.isSome_iff_exists.1 (by simp)
    have htail : e.tail = some t := by rw [h.tail, List.getLast?_concat]
    have hnext : lk.next t = none := h.segment.next_last
    obtain ⟨rfl, rfl⟩ : (⟨update lk.next t (some a), update lk.prev a (some t)⟩ :
        Links α) = lk' ∧ (⟨some x, some a⟩ : Ends α) = e' := by
      simpa [append, hx, htail] using happ
    have he : (⟨some x, some t⟩ : Ends α) = e := Ends.ext hx.symm htail.symm
    have h1 : update lk.next t none = lk.next := update_eq_self_iff.2 hnext.symm
    have h2 : update lk.prev a none = lk.prev := update_eq_self_iff.2 hprev.symm
    simp [returnTail, he, h1, h2]

/-- The first element is put back in front. -/
theorem prepend_returnHead (h : IsList lk e (a :: l))
    (hret : returnHead lk e = some (b, lk', e')) : b = a ∧ prepend lk' e' a = (lk, e) := by
  have hhead : e.head = some a := h.head
  have hprev : lk.prev a = none := h.segment.1
  cases l with
  | nil =>
    have hnext : lk.next a = none := h.segment.2.1
    have htail : e.tail = some a := h.tail
    obtain ⟨rfl, rfl, rfl⟩ : a = b ∧ lk = lk' ∧ (⟨none, none⟩ : Ends α) = e' := by
      simpa [returnHead, hhead, hnext] using hret
    have he : (⟨some a, some a⟩ : Ends α) = e := Ends.ext hhead.symm htail.symm
    exact ⟨rfl, by simp [prepend, he]⟩
  | cons n l =>
    have hnext : lk.next a = some n := h.segment.2.1
    have hback : lk.prev n = some a := h.segment.2.2.1
    obtain ⟨rfl, rfl, rfl⟩ : a = b ∧ (⟨update lk.next a none,
        update lk.prev n none⟩ : Links α) = lk' ∧ (⟨some n, e.tail⟩ : Ends α) = e' := by
      simpa [returnHead, hhead, hnext] using hret
    have he : (⟨some a, e.tail⟩ : Ends α) = e := Ends.ext hhead.symm rfl
    have h1 : update lk.next a (some n) = lk.next :=
      update_eq_self_iff.2 hnext.symm
    have h2 : update lk.prev n (some a) = lk.prev :=
      update_eq_self_iff.2 hback.symm
    exact ⟨rfl, by simp [prepend, he, h1, h2]⟩

theorem putBack_delete (h : IsList lk e (l ++ a :: l')) :
    putBack (delete lk e a).1 (delete lk e a).2 a = (lk, e) := by
  obtain ⟨hprev, hnext⟩ := h.prev_of_mem
  obtain ⟨hl, hal', hdisj⟩ := List.nodup_append.1 h.nodup
  obtain ⟨ha, hl'⟩ := List.nodup_cons.1 hal'
  have hseg := segment_append.1 h.segment
  -- the pointers of the element itself are not touched
  have hprev' : (delete lk e a).1.prev a = l.getLast? := by
    rw [← hprev]
    cases l' with
    | nil => simp [delete, hnext]
    | cons n l' =>
      have han : a ≠ n := fun han => ha (by simp [han])
      simp [delete, hnext, han]
  have hnext' : (delete lk e a).1.next a = l'.head? := by
    rw [← hnext]
    cases l using List.reverseRecOn with
    | nil => simp [delete, hprev]
    | append_singleton l t =>
      have hat : a ≠ t := fun hat => hdisj t (by simp) a (by simp) hat.symm
      simp [delete, hprev, hat]
  have hends : (putBack (delete lk e a).1 (delete lk e a).2 a).2 = e := by
    refine Ends.ext ?_ ?_
    · simp only [putBack, hnext']
      cases l with
      | nil => simp [delete, h.head, hnext]
      | cons b l =>
        have hba : b ≠ a := fun hba => hdisj b (by simp) a (by simp) hba
        have hbn : some b ≠ l'.head? := by
          cases l' with
          | nil => simp
          | cons n l' => simpa using fun hbn => hdisj b (by simp) n (by simp) hbn
        simp [delete, h.head, hba, hbn]
    · simp only [putBack, hprev']
      cases l' using List.reverseRecOn with
      | nil => simp [delete, h.tail, hprev]
      | append_singleton l' b =>
        have hba : b ≠ a := fun hba => ha (by simp [hba])
        have hbt : some b ≠ l.getLast? := by
          cases l using List.reverseRecOn with
          | nil => simp
          | append_singleton l t => simpa using fun hbt => hdisj t (by simp) b (by simp) hbt.symm
        have htail : e.tail = some b := by
          rw [h.tail, ← List.cons_append, ← List.append_assoc, List.getLast?_concat]
        simp [delete, htail, hba, hbt]
  have hlinks : (putBack (delete lk e a).1 (delete lk e a).2 a).1 = lk := by
    refine Links.ext ?_ ?_
    · change setAt (delete lk e a).1.next ((delete lk e a).1.prev a) (some a) = lk.next
      rw [hprev', delete, hprev]
      cases l using List.reverseRecOn with
      | nil => rfl
      | append_singleton l t =>
        have ht : lk.next t = some a := by simpa using hseg.1.next_last
        simp [ht]
    · change setAt (delete lk e a).1.prev ((delete lk e a).1.next a) (some a) = lk.prev
      rw [hnext', delete, hnext]
      cases l' with
      | nil => rfl
      | cons n l' =>
        have hn : lk.prev n = some a := hseg.2.2.2.1
        simp [hn]
  exact Prod.ext hlinks hends

end

end CodesSim.Dll
