import CodesSim.Lib.Dll

/-!
# The message lists of the routers

The lists of messages that the networks share (`common-net.c`): one for each port and index, with
pointers to its head and its tail, linked through the messages.  The operations write pointer after
pointer, each write reading what the ones before it have left; where the lists are well-formed they
are those of `Dll`.

`delete_from_message_list` leaves the pointers of the message that it takes out as they are, and
`add_to_message_list` trusts them.  So messages taken out one after the other, in any order, are put
back by adding them the other way round (`deletions_undone`).
-/

namespace CodesSim

open Function
open Dll (Links Ends IsList Frame)

/-- The pointers of all lists and what the messages say about where they are; messages are named by
their addresses. -/
@[ext]
structure MessageLists (α : Type*) where
  /-- `allq` by port and index. -/
  allq : ℕ × ℕ → Option α
  /-- `alltail` by port and index. -/
  alltail : ℕ × ℕ → Option α
  next : α → Option α
  prev : α → Option α
  port : α → ℕ
  index : α → ℕ

namespace MessageLists

section

variable {α : Type*} [DecidableEq α] (s : MessageLists α) (q : ℕ × ℕ) (msg : α)

/-- The list that a message says it is in. -/
def place : ℕ × ℕ := (s.port msg, s.index msg)

def setHead (v : Option α) : MessageLists α := { s with allq := update s.allq q v }

def setTail (v : Option α) : MessageLists α := { s with alltail := update s.alltail q v }

def setNext (v : Option α) : MessageLists α := { s with next := update s.next msg v }

def setPrev (v : Option α) : MessageLists α := { s with prev := update s.prev msg v }

/-- `append_to_message_list`; `none` if a list with a head has no tail. -/
def appendToMessageList : Option (MessageLists α) :=
  match s.allq q with
  | none => some ((s.setHead q (some msg)).setTail q (some msg))
  | some _ => (s.alltail q).map fun tail =>
    ((s.setNext tail (some msg)).setPrev msg (some tail)).setTail q (some msg)

/-- `prepend_to_message_list`. -/
def prependToMessageList : MessageLists α :=
  match s.allq q with
  | none => (s.setTail q (some msg)).setHead q (some msg)
  | some head => ((s.setPrev head (some msg)).setNext msg (some head)).setHead q (some msg)

/-- `return_head`, which returns no message from an empty list. -/
def returnHead : Option α × MessageLists α :=
  match s.allq q with
  | none => (none, s)
  | some head =>
    let s := s.setHead q (s.next head)
    match s.next head with
    | some next => (some head, (s.setPrev next none).setNext head none)
    | none => (some head, s.setTail q none)

/-- `return_tail`; `none` if its assertion fails. -/
def returnTail : Option (α × MessageLists α) :=
  (s.alltail q).map fun tail =>
    match s.prev tail with
    | some prev => (tail, ((s.setNext prev none).setTail q (some prev)).setPrev tail none)
    | none => (tail, (s.setTail q none).setHead q none)

/-- `delete_from_message_list`. -/
def deleteFromMessageList : MessageLists α :=
  let q := s.place msg
  let s := if s.allq q = some msg then s.setHead q (s.next msg) else s
  let s := if s.alltail q = some msg then s.setTail q (s.prev msg) else s
  let s := match s.prev msg with
    | some prev => s.setNext prev (s.next msg)
    | none => s
  match s.next msg with
  | some next => s.setPrev next (s.prev msg)
  | none => s

/-- `add_to_message_list`. -/
def addToMessageList : MessageLists α :=
  let q := s.place msg
  let s := if s.allq q = s.next msg then s.setHead q (some msg) else s
  let s := if s.alltail q = s.prev msg then s.setTail q (some msg) else s
  let s := match s.prev msg with
    | some prev => s.setNext prev (some msg)
    | none => s
  match s.next msg with
  | some next => s.setPrev next (some msg)
  | none => s

end

/-! ### The lists as such -/

variable {α : Type*} {s s' : MessageLists α} {q q' : ℕ × ℕ} {msg : α}

def links (s : MessageLists α) : Links α := ⟨s.next, s.prev⟩

def ends (s : MessageLists α) (q : ℕ × ℕ) : Ends α := ⟨s.allq q, s.alltail q⟩

/-- The pointers hold the lists `L`, which have no message in common. -/
structure WellFormed (s : MessageLists α) (L : ℕ × ℕ → List α) : Prop where
  isList : ∀ q, IsList s.links (s.ends q) (L q)
  disjoint : ∀ q q' msg, msg ∈ L q → msg ∈ L q' → q = q'

/-- A message that is in none of the lists and points nowhere, as `init_message_list`, `return_head`
and `return_tail` leave it. -/
structure Detached (s : MessageLists α) (L : ℕ × ℕ → List α) (msg : α) : Prop where
  not_mem : ∀ q, msg ∉ L q
  next : s.next msg = none
  prev : s.prev msg = none

/-- The pointers of one list are written. -/
def setList (s : MessageLists α) (q : ℕ × ℕ) (x : Links α × Ends α) : MessageLists α :=
  { s with
    allq := update s.allq q x.2.head
    alltail := update s.alltail q x.2.tail
    next := x.1.next
    prev := x.1.prev }

@[simp] theorem links_setList (x : Links α × Ends α) : (s.setList q x).links = x.1 := rfl

@[simp] theorem ends_setList_self (x : Links α × Ends α) : (s.setList q x).ends q = x.2 := by
  simp [ends, setList]

theorem ends_setList_of_ne (x : Links α × Ends α) (hq : q' ≠ q) :
    (s.setList q x).ends q' = s.ends q' := by
  simp [ends, setList, hq]

@[simp] theorem setList_self : s.setList q (s.links, s.ends q) = s := by
  simp [setList, links, ends]

@[simp] theorem setList_setList (x y : Links α × Ends α) :
    (s.setList q x).setList q y = s.setList q y := by
  simp [setList]

@[simp] theorem place_setList (x : Links α × Ends α) :
    (s.setList q x).place msg = s.place msg := rfl

/-! ### The operations are those of `Dll` -/

variable [DecidableEq α]

theorem appendToMessageList_eq (s : MessageLists α) (q : ℕ × ℕ) (msg : α) :
    s.appendToMessageList q msg = (Dll.append s.links (s.ends q) msg).map (s.setList q) := by
  unfold appendToMessageList Dll.append
  cases hhead : s.allq q with
  | none => simp [ends, hhead, setHead, setTail, setList, links]
  | some h =>
    have hsame : update s.allq q (some h) = s.allq := by
      rw [← hhead, update_eq_self]
    cases htail : s.alltail q <;>
      simp [ends, hhead, htail, hsame, setNext, setPrev, setTail, setList, links]

theorem prependToMessageList_eq (s : MessageLists α) (q : ℕ × ℕ) (msg : α) :
    s.prependToMessageList q msg = s.setList q (Dll.prepend s.links (s.ends q) msg) := by
  unfold prependToMessageList Dll.prepend
  cases hhead : s.allq q <;> simp [ends, hhead, setHead, setTail, setNext, setPrev, setList, links]

theorem returnHead_eq (s : MessageLists α) (q : ℕ × ℕ) :
    s.returnHead q = match Dll.returnHead s.links (s.ends q) with
      | none => (none, s)
      | some (head, x) => (some head, s.setList q x) := by
  unfold returnHead Dll.returnHead
  cases hhead : s.allq q with
  | none => simp [ends, hhead]
  | some h =>
    cases hnext : s.next h <;>
      simp [ends, hhead, hnext, setHead, setTail, setNext, setPrev, setList, links]

theorem returnTail_eq (s : MessageLists α) (q : ℕ × ℕ) :
    s.returnTail q = (Dll.returnTail s.links (s.ends q)).map fun x => (x.1, s.setList q x.2) := by
  unfold returnTail Dll.returnTail
  cases htail : s.alltail q with
  | none => simp [ends, htail]
  | some t =>
    cases hprev : s.prev t <;>
      simp [ends, htail, hprev, setHead, setTail, setNext, setPrev, setList, links]

omit [DecidableEq α] in
theorem ite_setHead (c : Prop) [Decidable c] (v : Option α) :
    (if c then s.setHead q v else s) = s.setHead q (if c then v else s.allq q) := by
  split <;> simp [setHead]

omit [DecidableEq α] in
theorem ite_setTail (c : Prop) [Decidable c] (v : Option α) :
    (if c then s.setTail q v else s) = s.setTail q (if c then v else s.alltail q) := by
  split <;> simp [setTail]

theorem deleteFromMessageList_eq (s : MessageLists α) (msg : α) :
    s.deleteFromMessageList msg =
      s.setList (s.place msg) (Dll.delete s.links (s.ends (s.place msg)) msg) := by
  unfold deleteFromMessageList Dll.delete
  simp only [ite_setHead, ite_setTail]
  rcases hprev : s.prev msg with _ | prev
  · rcases hnext : s.next msg with _ | next <;>
      simp [ends, hprev, hnext, setHead, setTail, setPrev, setList, links]
  · -- the first write does not change what the second one reads, even if the message is its own
    -- neighbour
    have hkeep : update s.next prev (s.next msg) msg = s.next msg := by
      by_cases h : msg = prev
      · rw [h, update_self]
      · exact update_of_ne h _ _
    rcases hnext : s.next msg with _ | next <;> rw [hnext] at hkeep <;>
      simp [ends, hprev, hnext, hkeep, setHead, setTail, setNext, setPrev, setList, links]

theorem addToMessageList_eq (hne : s.prev msg ≠ some msg) :
    s.addToMessageList msg =
      s.setList (s.place msg) (Dll.putBack s.links (s.ends (s.place msg)) msg) := by
  unfold addToMessageList Dll.putBack
  simp only [ite_setHead, ite_setTail]
  rcases hprev : s.prev msg with _ | prev
  · rcases hnext : s.next msg with _ | next <;>
      simp [ends, hprev, hnext, setHead, setTail, setPrev, setList, links]
  · have hkeep : update s.next prev (some msg) msg = s.next msg :=
      update_of_ne (fun h => hne (by rw [hprev, h])) _ _
    rcases hnext : s.next msg with _ | next <;> rw [hnext] at hkeep <;>
      simp [ends, hprev, hnext, hkeep, setHead, setTail, setNext, setPrev, setList, links]

/-! ### Well-formed lists -/

variable {L : ℕ × ℕ → List α}

omit [DecidableEq α] in
/-- One list becomes `l`, by writes to the messages `t` only. -/
theorem WellFormed.setList (h : s.WellFormed L) {x : Links α × Ends α} {l t : List α}
    (hlist : IsList x.1 x.2 l) (hframe : Frame s.links x.1 t)
    (ht : ∀ b ∈ t, ∀ q', q' ≠ q → b ∉ L q') (hl : ∀ b ∈ l, b ∈ t) :
    (s.setList q x).WellFormed (update L q l) := by
  refine ⟨fun q' => ?_, fun q₁ q₂ b h₁ h₂ => ?_⟩
  · by_cases hq : q' = q
    · subst hq
      simpa using hlist
    · rw [ends_setList_of_ne x hq, update_of_ne hq]
      exact (h.isList q').congr hframe fun b hb hbt => ht b hbt q' hq hb
  · by_cases hq₁ : q₁ = q <;> by_cases hq₂ : q₂ = q
    · rw [hq₁, hq₂]
    · subst hq₁
      rw [update_self] at h₁
      rw [update_of_ne hq₂] at h₂
      exact absurd h₂ (ht b (hl b h₁) q₂ hq₂)
    · subst hq₂
      rw [update_self] at h₂
      rw [update_of_ne hq₁] at h₁
      exact absurd h₁ (ht b (hl b h₂) q₁ hq₁)
    · rw [update_of_ne hq₁] at h₁
      rw [update_of_ne hq₂] at h₂
      exact h.disjoint q₁ q₂ b h₁ h₂

omit [DecidableEq α] in
/-- Messages of a list are in no other one. -/
theorem WellFormed.not_mem (h : s.WellFormed L) {t : List α} (ht : ∀ b ∈ t, b ∈ L q) :
    ∀ b ∈ t, ∀ q', q' ≠ q → b ∉ L q' :=
  fun b hb q' hq hb' => hq (h.disjoint q' q b hb' (ht b hb))

omit [DecidableEq α] in
theorem Detached.not_mem_cons (hd : s.Detached L msg) (h : s.WellFormed L) :
    ∀ b ∈ msg :: L q, ∀ q', q' ≠ q → b ∉ L q' := by
  intro b hb q' hq
  obtain rfl | hb := List.mem_cons.1 hb
  · exact hd.not_mem q'
  · exact h.not_mem (fun _ h => h) b hb q' hq

theorem WellFormed.append (h : s.WellFormed L) (hd : s.Detached L msg) (q : ℕ × ℕ) :
    ∃ s', s.appendToMessageList q msg = some s' ∧
      s'.WellFormed (update L q (L q ++ [msg])) ∧ s'.returnTail q = some (msg, s) := by
  obtain ⟨lk, e, happ, hlist, hframe, -⟩ :=
    (h.isList q).append (hd.not_mem q) hd.prev hd.next
  refine ⟨s.setList q (lk, e), by rw [appendToMessageList_eq, happ]; rfl, ?_, ?_⟩
  · exact h.setList hlist hframe (hd.not_mem_cons h) fun b hb => by simpa [or_comm] using hb
  · have hback := Dll.returnTail_append (h.isList q) (hd.not_mem q) hd.prev happ
    rw [returnTail_eq, links_setList, ends_setList_self, hback, Option.map_some, setList_setList,
      setList_self]

theorem WellFormed.prepend (h : s.WellFormed L) (hd : s.Detached L msg) (q : ℕ × ℕ) :
    (s.prependToMessageList q msg).WellFormed (update L q (msg :: L q)) := by
  obtain ⟨lk, e, hpre, hlist, hframe⟩ := (h.isList q).prepend (hd.not_mem q) hd.prev hd.next
  rw [prependToMessageList_eq, hpre]
  exact h.setList hlist hframe (hd.not_mem_cons h) fun _ hb => hb

omit [DecidableEq α] in
/-- A message that was taken from a list is in none. -/
theorem WellFormed.not_mem_update (h : s.WellFormed L) {l : List α} (hmsg : msg ∈ L q)
    (hl : msg ∉ l) (q' : ℕ × ℕ) : msg ∉ update L q l q' := by
  by_cases hq : q' = q
  · subst hq
    rwa [update_self]
  · rw [update_of_ne hq]
    exact fun hmem => hq (h.disjoint q' q msg hmem hmsg)

theorem WellFormed.returnHead_nil (h : s.WellFormed L) (hq : L q = []) :
    s.returnHead q = (none, s) := by
  have hhead : s.allq q = none := (h.isList q).head_eq_none.2 hq
  simp only [returnHead, hhead]

theorem WellFormed.returnHead (h : s.WellFormed L) {l : List α} (hq : L q = msg :: l) :
    ∃ s', s.returnHead q = (some msg, s') ∧ s'.WellFormed (update L q l) ∧
      s'.Detached (update L q l) msg ∧ s'.prependToMessageList q msg = s := by
  have hlist := h.isList q
  rw [hq] at hlist
  obtain ⟨lk, e, hret, hrest, hframe, hnext, hprev⟩ := hlist.returnHead
  have hmem : ∀ b ∈ msg :: l, b ∈ L q := fun b hb => hq ▸ hb
  refine ⟨s.setList q (lk, e), by rw [returnHead_eq, hret], ?_, ⟨?_, hnext, hprev⟩, ?_⟩
  · exact h.setList hrest hframe (h.not_mem hmem) fun b hb => List.mem_cons_of_mem _ hb
  · exact h.not_mem_update (hmem msg List.mem_cons_self) (List.nodup_cons.1 hlist.nodup).1
  · rw [prependToMessageList_eq, links_setList, ends_setList_self, setList_setList,
      (Dll.prepend_returnHead hlist hret).2, setList_self]

theorem WellFormed.returnTail (h : s.WellFormed L) {l : List α} (hq : L q = l ++ [msg]) :
    ∃ s', s.returnTail q = some (msg, s') ∧ s'.WellFormed (update L q l) ∧
      s'.Detached (update L q l) msg := by
  have hlist := h.isList q
  rw [hq] at hlist
  obtain ⟨lk, e, hret, hrest, hframe, hnext, hprev⟩ := hlist.returnTail
  have hmem : ∀ b ∈ l ++ [msg], b ∈ L q := fun b hb => hq ▸ hb
  refine ⟨s.setList q (lk, e), by rw [returnTail_eq, hret]; rfl, ?_, ⟨?_, hnext, hprev⟩⟩
  · exact h.setList hrest hframe (h.not_mem hmem) fun b hb => List.mem_append_left _ hb
  · refine h.not_mem_update (hmem msg (by simp)) fun hl => ?_
    exact (List.nodup_append.1 hlist.nodup).2.2 msg hl msg (by simp) rfl

/-! ### Messages taken out and put back -/

theorem WellFormed.delete (h : s.WellFormed L) (hmsg : msg ∈ L (s.place msg)) :
    (s.deleteFromMessageList msg).WellFormed
      (update L (s.place msg) ((L (s.place msg)).erase msg)) ∧
      (s.deleteFromMessageList msg).addToMessageList msg = s := by
  obtain ⟨l, l', hl, heq, herase⟩ := List.exists_erase_eq hmsg
  have hlist := h.isList (s.place msg)
  rw [heq] at hlist
  obtain ⟨lk, e, hdel, hrest, hframe⟩ := hlist.delete
  have hback := Dll.putBack_delete hlist
  rw [hdel] at hback
  have hmem : ∀ b ∈ l ++ l', b ∈ L (s.place msg) := by
    intro b hb
    rw [heq]
    obtain hb | hb := List.mem_append.1 hb <;> simp [hb]
  constructor
  · rw [deleteFromMessageList_eq, hdel, herase]
    exact h.setList hrest hframe (h.not_mem hmem) fun _ hb => hb
  · rw [deleteFromMessageList_eq, hdel]
    -- the message still points to the last one before it, which is another one
    have hprev : lk.prev msg ≠ some msg := by
      have hother : msg ∉ l ++ l' := by
        have hnodup := hlist.nodup
        rw [List.nodup_append, List.nodup_cons] at hnodup
        rw [List.mem_append, not_or]
        exact ⟨hl, hnodup.2.1.1⟩
      rw [(hframe msg hother).2, hlist.prev_of_mem.1]
      exact fun hlast => hl (List.mem_of_getLast? hlast)
    rw [addToMessageList_eq hprev, place_setList, links_setList, ends_setList_self, setList_setList,
      hback, setList_self]

theorem place_deleteFromMessageList (s : MessageLists α) (msg b : α) :
    (s.deleteFromMessageList msg).place b = s.place b := by
  rw [deleteFromMessageList_eq, place_setList]

/-- Messages are taken out one after the other; adding them the other way round restores every
pointer. -/
theorem WellFormed.deletions {msgs : List α} (h : s.WellFormed L) (hnodup : msgs.Nodup)
    (hmsgs : ∀ msg ∈ msgs, msg ∈ L (s.place msg)) :
    (msgs.foldl deleteFromMessageList s).WellFormed (fun q => (L q).filter (· ∉ msgs)) ∧
      msgs.reverse.foldl addToMessageList (msgs.foldl deleteFromMessageList s) = s := by
  induction msgs generalizing s L with
  | nil => simpa using h
  | cons msg msgs ih =>
    obtain ⟨hmsg, hnodup⟩ := List.nodup_cons.1 hnodup
    obtain ⟨hwf, hback⟩ := h.delete (hmsgs msg List.mem_cons_self)
    have hrest : ∀ b ∈ msgs, b ∈ update L (s.place msg) ((L (s.place msg)).erase msg)
        ((s.deleteFromMessageList msg).place b) := by
      intro b hb
      have hbL := hmsgs b (List.mem_cons_of_mem _ hb)
      rw [place_deleteFromMessageList]
      by_cases hq : s.place b = s.place msg
      · have hne : b ≠ msg := fun hbm => hmsg (hbm ▸ hb)
        rw [hq] at hbL ⊢
        rw [update_self]
        exact (List.mem_erase_of_ne hne).2 hbL
      · rwa [update_of_ne hq]
    obtain ⟨hwf', hback'⟩ := ih hwf hnodup hrest
    constructor
    · have hL : (fun q => (L q).filter (· ∉ msg :: msgs)) = fun q =>
          (update L (s.place msg) ((L (s.place msg)).erase msg) q).filter (· ∉ msgs) := by
        funext q
        by_cases hq : q = s.place msg
        · rw [hq, update_self, (h.isList _).nodup.erase_eq_filter, List.filter_filter]
          refine List.filter_congr fun b _ => ?_
          by_cases hb : b = msg <;> simp [hb]
        · rw [update_of_ne hq]
          refine List.filter_congr fun b hb => ?_
          have hne : b ≠ msg := by
            rintro rfl
            exact hq (h.disjoint q _ b hb (hmsgs b List.mem_cons_self))
          simp [hne]
      rw [hL]
      exact hwf'
    · simp only [List.reverse_cons, List.foldl_append, List.foldl_cons, List.foldl_nil, hback',
        hback]

/-- The operations keep the lists well-formed and do to them what they say; taking messages out and
putting them back, appending and taking the tail, taking the head and prepending restore every
pointer. -/
theorem operations_undone (h : s.WellFormed L) :
    (∀ msg, msg ∈ L (s.place msg) → (s.deleteFromMessageList msg).WellFormed
      (update L (s.place msg) ((L (s.place msg)).erase msg))) ∧
    (∀ msgs : List α, msgs.Nodup → (∀ msg ∈ msgs, msg ∈ L (s.place msg)) →
      (msgs.foldl deleteFromMessageList s).WellFormed (fun q => (L q).filter (· ∉ msgs)) ∧
        msgs.reverse.foldl addToMessageList (msgs.foldl deleteFromMessageList s) = s) ∧
    (∀ q msg, s.Detached L msg → ∃ s', s.appendToMessageList q msg = some s' ∧
      s'.WellFormed (update L q (L q ++ [msg])) ∧ s'.returnTail q = some (msg, s)) ∧
    (∀ q msg, s.Detached L msg →
      (s.prependToMessageList q msg).WellFormed (update L q (msg :: L q))) ∧
    (∀ q, L q = [] → s.returnHead q = (none, s)) ∧
    (∀ q msg l, L q = msg :: l → ∃ s', s.returnHead q = (some msg, s') ∧
      s'.WellFormed (update L q l) ∧ s'.Detached (update L q l) msg ∧
      s'.prependToMessageList q msg = s) ∧
    ∀ q msg l, L q = l ++ [msg] → ∃ s', s.returnTail q = some (msg, s') ∧
      s'.WellFormed (update L q l) ∧ s'.Detached (update L q l) msg := by
  refine ⟨fun msg hmsg => (h.delete hmsg).1, fun msgs hnodup hmsgs => h.deletions hnodup hmsgs,
    fun q msg hd => h.append hd q, fun q msg hd => h.prepend hd q, fun q => h.returnHead_nil,
    fun q msg l => h.returnHead, fun q msg l => h.returnTail⟩

/-- Messages 1, 2, 3 at port 2 and index 1. -/
def threeMessages : MessageLists ℕ where
  allq q := if q = (2, 1) then some 1 else none
  alltail q := if q = (2, 1) then some 3 else none
  next a := if a = 1 then some 2 else if a = 2 then some 3 else none
  prev a := if a = 2 then some 1 else if a = 3 then some 2 else none
  port _ := 2
  index _ := 1

theorem wellFormed_threeMessages :
    threeMessages.WellFormed fun q => if q = (2, 1) then [1, 2, 3] else [] := by
  refine ⟨fun q => ?_, fun q q' msg hq hq' => ?_⟩
  · by_cases hq : q = (2, 1)
    · simp only [hq, if_true]
      exact ⟨rfl, rfl, by simp [threeMessages, links], by decide⟩
    · simp only [hq, if_false]
      exact ⟨if_neg hq, if_neg hq, trivial, List.nodup_nil⟩
  · by_cases h : q = (2, 1) <;> by_cases h' : q' = (2, 1)
    · rw [h, h']
    all_goals simp_all

theorem operations_undone_threeMessages :
    [1, 3, 2].foldl addToMessageList ([2, 3, 1].foldl deleteFromMessageList threeMessages) =
        threeMessages ∧
      ∃ s', threeMessages.appendToMessageList (2, 1) 4 = some s' ∧
        s'.returnTail (2, 1) = some (4, threeMessages) := by
  obtain ⟨-, hdel, happ, -⟩ := operations_undone wellFormed_threeMessages
  have hdetached : threeMessages.Detached (fun q => if q = (2, 1) then [1, 2, 3] else []) 4 :=
    ⟨fun q => by split <;> decide, rfl, rfl⟩
  obtain ⟨s', happ, -, hback⟩ := happ (2, 1) 4 hdetached
  exact ⟨(hdel [2, 3, 1] (by decide) (by decide)).2, s', happ, hback⟩

end MessageLists

end CodesSim
