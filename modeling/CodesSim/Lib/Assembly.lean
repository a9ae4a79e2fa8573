import Mathlib.Algebra.Order.BigOperators.Group.List
import Mathlib.Data.List.Induction
import Mathlib.Data.List.Nodup
import Mathlib.Tactic.Ring

/-!
# Putting messages together from parts

Messages are sent in parts, which arrive one by one in any order.  A part bears the key of its
message, the number of parts that the receiver shall expect, and perhaps the payload of the message.
The receiver (`Desk`) counts the parts of each message that is not complete, keeps the first payload
that comes along, and finishes a message when it has as many parts as it expects.

* `Desk.run_spec` : what has become of a message as long as there are no more parts than expected;
* `ExactlyOnce` : a receiver finishes each message once, when its last part arrives;
* `Receiver.KeepsDesk.exactlyOnce_iff` : a receiver that keeps a desk does so exactly if it accepts
  all parts and expects as many of each message as there are.
-/

namespace CodesSim.Assembly

open Function

variable {α M K β ε : Type*}

/-! ### The desk -/

/-- What has arrived of a message: the number of its parts and the first payload. -/
structure Entry (β : Type*) where
  count : ℤ
  data : List β

/-- The payload that is kept when another one comes along. -/
def keep : List β → List β → List β
  | [], data => data
  | b :: bs, _ => b :: bs

@[simp] theorem keep_nil (data : List β) : keep [] data = data := rfl

theorem keep_of_ne {old : List β} (h : old ≠ []) (data : List β) : keep old data = old := by
  cases old with
  | nil => exact absurd rfl h
  | cons b bs => rfl

/-- One more part arrives. -/
def Entry.add (e : Entry β) (data : List β) : Entry β := ⟨e.count + 1, keep e.data data⟩

/-- What is written on a part. -/
structure Labels (α K β : Type*) where
  key : α → K
  data : α → List β
  expected : α → ℤ

variable (L : Labels α K β)

/-- The first payload among some parts. -/
def Labels.payload (as : List α) : List β :=
  as.foldl (fun data a => keep data (L.data a)) []

@[simp] theorem payload_snoc (as : List α) (a : α) :
    L.payload (as ++ [a]) = keep (L.payload as) (L.data a) := by simp [Labels.payload]

theorem payload_eq {as : List α} {data : List β} (hall : ∀ a ∈ as, L.data a = [] ∨ L.data a = data)
    (hsome : data ≠ [] → ∃ a ∈ as, L.data a = data) : L.payload as = data := by
  have hcases : L.payload as = [] ∨ L.payload as = data := by
    clear hsome
    induction as using List.reverseRecOn with
    | nil => exact .inl rfl
    | append_singleton as a ih =>
      rw [payload_snoc]
      by_cases hempty : L.payload as = []
      · rw [hempty]
        exact hall a (by simp)
      · rw [keep_of_ne hempty]
        exact ih fun a' ha' => hall a' (by simp [ha'])
  have hnonempty : ∀ a ∈ as, L.data a ≠ [] → L.payload as ≠ [] := by
    clear hall hsome hcases
    induction as using List.reverseRecOn with
    | nil => exact fun a ha => (nomatch ha)
    | append_singleton as a ih =>
      intro a' ha' hne
      rw [payload_snoc]
      by_cases hempty : L.payload as = []
      · rcases List.mem_append.1 ha' with hmem | hmem
        · exact absurd hempty (ih a' hmem hne)
        · obtain rfl := List.mem_singleton.1 hmem
          rwa [hempty]
      · rwa [keep_of_ne hempty]
  by_cases hdata : data = []
  · rcases hcases with h | h
    · rw [h, hdata]
    · exact h
  · obtain ⟨a, ha, rfl⟩ := hsome hdata
    exact hcases.resolve_left (hnonempty a ha hdata)

/-- The messages that are not complete, and for those that are, in order, the last part and the
payload. -/
structure Desk (α K β : Type*) where
  table : K → Option (Entry β)
  finished : List (α × List β)

def Desk.init : Desk α K β := ⟨fun _ => none, []⟩

variable [DecidableEq K]

/-- The entry of a part, with the part. -/
def Desk.entry (d : Desk α K β) (a : α) : Entry β :=
  ((d.table (L.key a)).getD ⟨0, []⟩).add (L.data a)

/-- A part completes its message. -/
def Desk.Completes (d : Desk α K β) (a : α) : Prop := L.expected a ≤ (d.entry L a).count

instance (d : Desk α K β) (a : α) : Decidable (d.Completes L a) :=
  inferInstanceAs (Decidable (_ ≤ _))

/-- A part arrives. -/
def Desk.arrive (d : Desk α K β) (a : α) : Desk α K β where
  table := update d.table (L.key a)
    (if d.Completes L a then none else some (d.entry L a))
  finished := d.finished ++ if d.Completes L a then [(a, (d.entry L a).data)] else []

theorem Desk.arrive_table (d : Desk α K β) (a : α) (k : K) : (d.arrive L a).table k =
    if k = L.key a then if d.Completes L a then none else some (d.entry L a) else d.table k :=
  update_apply ..

/-- The desk after some parts. -/
def Desk.run (as : List α) : Desk α K β := as.foldl (Desk.arrive L) Desk.init

@[simp] theorem Desk.run_nil : Desk.run L [] = Desk.init := rfl

@[simp] theorem Desk.run_snoc (as : List α) (a : α) :
    Desk.run L (as ++ [a]) = (Desk.run L as).arrive L a := by simp [Desk.run]

/-- The parts of a message. -/
def Labels.partsOf (k : K) (as : List α) : List α := as.filter fun a => L.key a = k

@[simp] theorem partsOf_nil (k : K) : L.partsOf k [] = [] := rfl

@[simp] theorem partsOf_append (k : K) (as as' : List α) :
    L.partsOf k (as ++ as') = L.partsOf k as ++ L.partsOf k as' := List.filter_append ..

@[simp] theorem partsOf_singleton (k : K) (a : α) :
    L.partsOf k [a] = if L.key a = k then [a] else [] := by
  by_cases h : L.key a = k <;> simp [Labels.partsOf, h]

theorem mem_partsOf {k : K} {as : List α} {a : α} :
    a ∈ L.partsOf k as ↔ a ∈ as ∧ L.key a = k := by simp [Labels.partsOf]

/-- **A message with no more parts than expected.**  There is an entry for it while some parts have
arrived and some have not, and it is finished when the last one arrives. -/
theorem Desk.run_spec (k : K) (n : ℕ) (as : List α)
    (hexpected : ∀ a ∈ as, L.key a = k → max 1 (L.expected a) = n)
    (hle : (L.partsOf k as).length ≤ n) :
    (Desk.run L as).table k =
      (if (L.partsOf k as).length = 0 ∨ (L.partsOf k as).length = n then none
        else some ⟨(L.partsOf k as).length, L.payload (L.partsOf k as)⟩) ∧
    (Desk.run L as).finished.filter (fun x => L.key x.1 = k) =
      if (L.partsOf k as).length = n then
        (L.partsOf k as).getLast?.toList.map fun a => (a, L.payload (L.partsOf k as))
      else [] := by
  induction as using List.reverseRecOn with
  | nil => simp [Desk.init]
  | append_singleton as a ih =>
    rw [partsOf_append, partsOf_singleton] at hle
    obtain ⟨htable, hfinished⟩ := ih (fun a' ha' => hexpected a' (by simp [ha'])) (by
      rw [List.length_append] at hle
      omega)
    rw [Desk.run_snoc, partsOf_append, partsOf_singleton]
    by_cases hk : L.key a = k
    · -- the part is one of this message, so the message was not complete
      subst hk
      rw [if_pos rfl] at hle ⊢
      have hn := hexpected a (by simp) rfl
      rw [List.length_append, List.length_singleton] at hle
      have hne : (L.partsOf (L.key a) as).length ≠ n := by omega
      have hentry : (Desk.run L as).entry L a = ⟨(L.partsOf (L.key a) as).length + 1,
          L.payload (L.partsOf (L.key a) as ++ [a])⟩ := by
        rw [Desk.entry, htable, payload_snoc]
        by_cases h0 : (L.partsOf (L.key a) as).length = 0
        · have hnil := List.length_eq_zero_iff.1 h0
          simp [hnil, Entry.add, Labels.payload]
        · simp [h0, hne, Entry.add]
      have hdone : (Desk.run L as).Completes L a ↔ (L.partsOf (L.key a) as).length + 1 = n := by
        rw [Desk.Completes, hentry]
        simp only
        omega
      simp only [Desk.arrive, update_self, List.filter_append, hfinished, if_neg hne,
        List.nil_append, List.length_append, List.length_singleton]
      by_cases hlast : (L.partsOf (L.key a) as).length + 1 = n
      · rw [if_pos (hdone.2 hlast), if_pos (hdone.2 hlast), if_pos (.inr hlast), if_pos hlast]
        simp [hentry]
      · rw [if_neg (mt hdone.1 hlast), if_neg (mt hdone.1 hlast), if_neg (by omega), if_neg hlast]
        simp [hentry]
    · rw [if_neg hk, List.append_nil]
      refine ⟨?_, ?_⟩
      · exact (update_of_ne (Ne.symm hk) _ _).trans htable
      · rw [Desk.arrive, List.filter_append, hfinished]
        split <;> simp [hk]

/-! ### Exactly once -/

/-- What is seen of a receiver: for which messages it has an entry, what it has issued for a
message, how many messages it has finished and how many bytes. -/
structure Seen (K ε : Type*) where
  isOpen : K → Prop
  issued : K → List ε
  finished : ℤ
  bytes : ℤ

/-- All parts of a message have arrived. -/
def Labels.Complete (as pre : List α) (k : K) : Prop :=
  (L.partsOf k pre).length = (L.partsOf k as).length

instance (as pre : List α) (k : K) : Decidable (L.Complete as pre k) :=
  inferInstanceAs (Decidable (_ = _))

/-- Some parts of a message have arrived and some have not. -/
def Labels.UnderWay (as pre : List α) (k : K) : Prop :=
  0 < (L.partsOf k pre).length ∧ ¬ L.Complete as pre k

instance (as pre : List α) (k : K) : Decidable (L.UnderWay as pre k) :=
  inferInstanceAs (Decidable (_ ∧ _))

/-- Messages: their keys, sizes and payloads, the events they are to issue and the numbers of parts
that the receiver expects of them. -/
structure Plan (M K β ε : Type*) where
  messages : List M
  key : M → K
  nodup : (messages.map key).Nodup
  size : M → ℕ
  payload : M → List β
  events : M → List ε
  expected : M → ℤ

/-- **Exactly once.**  While the parts `as` of some messages arrive, a message has an entry as long
as it is under way; when its last part arrives it is finished and its events are issued. -/
def ExactlyOnce (P : Plan M K β ε) (seen : List α → Option (Seen K ε)) (as : List α) : Prop :=
  ∀ pre suf, as = pre ++ suf → ∃ o, seen pre = some o ∧
    (∀ m ∈ P.messages, (o.isOpen (P.key m) ↔ L.UnderWay as pre (P.key m)) ∧
      o.issued (P.key m) = if L.Complete as pre (P.key m) then P.events m else []) ∧
    o.finished = (P.messages.map fun m => if L.Complete as pre (P.key m) then 1 else 0).sum ∧
    o.bytes =
      (P.messages.map fun m => if L.Complete as pre (P.key m) then (P.size m : ℤ) else 0).sum

theorem sum_ite_key {N : Type*} [AddCommMonoid N] {messages : List M} {key : M → K}
    (hnodup : (messages.map key).Nodup) (f : M → N) {m : M} (hm : m ∈ messages) :
    (messages.map fun m' => if key m = key m' then f m' else 0).sum = f m := by
  induction messages with
  | nil => cases hm
  | cons m' messages ih =>
    rw [List.map_cons, List.sum_cons]
    obtain ⟨hm', hnodup⟩ := List.nodup_cons.1 hnodup
    rcases List.mem_cons.1 hm with rfl | hmem
    · have hzero : (messages.map fun m' => if key m = key m' then f m' else 0).sum = 0 := by
        refine List.sum_eq_zero fun y hy => ?_
        obtain ⟨m', hmem, rfl⟩ := List.mem_map.1 hy
        refine if_neg fun hkey => hm' ?_
        rw [hkey]
        exact List.mem_map_of_mem hmem
      rw [if_pos rfl, hzero, add_zero]
    · rw [if_neg, zero_add, ih hnodup hmem]
      intro hkey
      rw [← hkey] at hm'
      exact hm' (List.mem_map_of_mem hmem)

theorem sum_by_key {messages : List M} {key : M → K} (hnodup : (messages.map key).Nodup)
    (f : α × List β → ℤ) (l : List (α × List β))
    (hmem : ∀ x ∈ l, L.key x.1 ∈ messages.map key) :
    (l.map f).sum =
      (messages.map fun m => ((l.filter fun x => L.key x.1 = key m).map f).sum).sum := by
  induction l with
  | nil => simp
  | cons x l ih =>
    obtain ⟨m, hm, hkey⟩ := List.mem_map.1 (hmem x (by simp))
    have hcons : ∀ k, (((x :: l).filter fun x => L.key x.1 = k).map f).sum =
        (if L.key x.1 = k then f x else 0) + ((l.filter fun x => L.key x.1 = k).map f).sum := by
      intro k
      by_cases hk : L.key x.1 = k <;> simp [hk]
    simp only [hcons, List.sum_map_add, List.map_cons, List.sum_cons]
    rw [← hkey, sum_ite_key hnodup (fun _ => f x) hm, ih fun y hy => hmem y (by simp [hy])]

theorem issued_by_key (emit : α → List β → List ε) (k : K) (l : List (α × List β)) :
    ((l.flatMap fun y => (emit y.1 y.2).map fun e => (L.key y.1, e)).filter
      fun z => z.1 = k).map Prod.snd =
        (l.filter fun y => L.key y.1 = k).flatMap fun y => emit y.1 y.2 := by
  induction l with
  | nil => rfl
  | cons y l ih =>
    rw [List.flatMap_cons, List.filter_append, List.map_append, ih]
    by_cases hk : L.key y.1 = k <;>
      simp [hk, List.filter_map, Function.comp_def]

theorem exists_moment {k : K} {n : ℕ} {as : List α} (h : n ≤ (L.partsOf k as).length) :
    ∃ pre suf, as = pre ++ suf ∧ (L.partsOf k pre).length = n := by
  induction as using List.reverseRecOn with
  | nil => exact ⟨[], [], rfl, (Nat.le_zero.1 h).symm⟩
  | append_singleton as a ih =>
    by_cases hn : n ≤ (L.partsOf k as).length
    · obtain ⟨pre, suf, rfl, hpre⟩ := ih hn
      exact ⟨pre, suf ++ [a], by simp, hpre⟩
    · refine ⟨as ++ [a], [], by simp, le_antisymm ?_ h⟩
      rw [partsOf_append, partsOf_singleton, List.length_append]
      split
      · rw [List.length_singleton]
        omega
      · rw [List.length_nil]
        omega

theorem partsOf_eq_of_complete {k : K} {as pre suf : List α} (h : as = pre ++ suf)
    (hc : L.Complete as pre k) : L.partsOf k pre = L.partsOf k as := by
  subst h
  rw [Labels.Complete, partsOf_append, List.length_append] at hc
  rw [partsOf_append, List.length_eq_zero_iff.1 (show (L.partsOf k suf).length = 0 by omega),
    List.append_nil]

theorem length_partsOf_le {k : K} {as pre suf : List α} (h : as = pre ++ suf) :
    (L.partsOf k pre).length ≤ (L.partsOf k as).length := by
  rw [h, partsOf_append, List.length_append]
  exact Nat.le_add_right _ _

/-- A part of a message. -/
structure Plan.IsPart (P : Plan M K β ε) (size : α → ℕ) (m : M) (a : α) : Prop where
  key : L.key a = P.key m
  expected : L.expected a = P.expected m
  size : size a = P.size m
  data : L.data a = [] ∨ L.data a = P.payload m

/-- `as` are the parts of the messages of a plan in some order. -/
structure Plan.Arrivals (P : Plan M K β ε) (size : α → ℕ) (as : List α) : Prop where
  isPart : ∀ a ∈ as, ∃ m ∈ P.messages, P.IsPart L size m a
  parts_ne : ∀ m ∈ P.messages, L.partsOf (P.key m) as ≠ []
  payload_mem : ∀ m ∈ P.messages, P.payload m ≠ [] →
    ∃ a ∈ L.partsOf (P.key m) as, L.data a = P.payload m
variable {pre suf : List α}


namespace Plan.Arrivals

variable {L} {P : Plan M K β ε} {size : α → ℕ} {as : List α} {m : M}

section

variable (h : P.Arrivals L size as)
include h

theorem isPart_of_key (hm : m ∈ P.messages) {a : α} (ha : a ∈ as)
    (hkey : L.key a = P.key m) : P.IsPart L size m a := by
  obtain ⟨m', hm', hpart⟩ := h.isPart a ha
  obtain rfl := List.inj_on_of_nodup_map P.nodup hm' hm (hpart.key.symm.trans hkey)
  exact hpart

theorem payload_eq (hm : m ∈ P.messages) : L.payload (L.partsOf (P.key m) as) = P.payload m := by
  refine Assembly.payload_eq L (fun a ha => ?_) fun hne => h.payload_mem m hm hne
  obtain ⟨hmem, hkey⟩ := (mem_partsOf L).1 ha
  exact (h.isPart_of_key hm hmem hkey).data

theorem expected_eq (hm : m ∈ P.messages) {n : ℕ} (hn : max 1 (P.expected m) = n) :
    ∀ a ∈ as, L.key a = P.key m → max 1 (L.expected a) = n := by
  intro a ha hkey
  rw [(h.isPart_of_key hm ha hkey).expected, hn]

theorem exists_last (hm : m ∈ P.messages) :
    ∃ a ∈ as, L.key a = P.key m ∧ (L.partsOf (P.key m) as).getLast? = some a := by
  obtain ⟨a, ha⟩ : ∃ a, (L.partsOf (P.key m) as).getLast? = some a :=
    Option.isSome_iff_exists.1 (by simpa using h.parts_ne m hm)
  obtain ⟨hmem, hkey⟩ := (mem_partsOf L).1 (List.mem_of_getLast? ha)
  exact ⟨a, hmem, hkey, ha⟩

theorem entry_count (hm : m ∈ P.messages)
    (hn : max 1 (P.expected m) = (L.partsOf (P.key m) as).length) {a : α}
    (hpre : as = pre ++ a :: suf) (hkey : L.key a = P.key m) :
    ((Desk.run L pre).entry L a).count = (L.partsOf (P.key m) (pre ++ [a])).length := by
  have hself : L.partsOf (P.key m) [a] = [a] := by rw [partsOf_singleton, if_pos hkey]
  have hlt : (L.partsOf (P.key m) pre).length < (L.partsOf (P.key m) as).length := by
    rw [hpre, ← List.singleton_append, partsOf_append, partsOf_append, hself]
    simp
  have htable := (Desk.run_spec L (P.key m) (L.partsOf (P.key m) as).length pre
    (fun a' ha' => h.expected_eq hm hn a' (hpre ▸ List.mem_append_left _ ha')) hlt.le).1
  rw [Desk.entry, hkey, htable, partsOf_append, hself, List.length_append]
  by_cases hzero : (L.partsOf (P.key m) pre).length = 0
  · rw [if_pos (.inl hzero), hzero]
    simp [Entry.add]
  · rw [if_neg (by omega)]
    simp [Entry.add]

theorem run_spec (hm : m ∈ P.messages) (hn : max 1 (P.expected m) = (L.partsOf (P.key m) as).length)
    (hpre : as = pre ++ suf) :
    ((Desk.run L pre).table (P.key m) ≠ none ↔ L.UnderWay as pre (P.key m)) ∧
    (Desk.run L pre).finished.filter (fun x => L.key x.1 = P.key m) =
      if L.Complete as pre (P.key m) then
        (L.partsOf (P.key m) as).getLast?.toList.map fun a =>
          (a, L.payload (L.partsOf (P.key m) as))
      else [] := by
  obtain ⟨htable, hfinished⟩ := Desk.run_spec L (P.key m) (L.partsOf (P.key m) as).length pre
    (fun a ha => h.expected_eq hm hn a (hpre ▸ List.mem_append_left _ ha))
    (length_partsOf_le L hpre)
  constructor
  · rw [htable, Labels.UnderWay, Labels.Complete]
    split
    · simp only [ne_eq, not_true_eq_false, false_iff]
      omega
    · simp only [ne_eq, reduceCtorEq, not_false_eq_true, true_iff]
      omega
  · rw [hfinished]
    by_cases hc : L.Complete as pre (P.key m)
    · rw [if_pos hc, if_pos (by exact hc), partsOf_eq_of_complete L hpre hc]
    · rw [if_neg hc, if_neg (by exact hc)]

theorem sum_finished (hn : ∀ m ∈ P.messages, max 1 (P.expected m) = (L.partsOf (P.key m) as).length)
    (hpre : as = pre ++ suf) (f : α → ℤ) (g : M → ℤ)
    (hfg : ∀ a ∈ as, ∀ m ∈ P.messages, L.key a = P.key m → f a = g m) :
    ((Desk.run L pre).finished.map fun x => f x.1).sum =
      (P.messages.map fun m => if L.Complete as pre (P.key m) then g m else 0).sum := by
  have hmem : ∀ x ∈ (Desk.run L pre).finished, L.key x.1 ∈ P.messages.map P.key := by
    have hall : ∀ a ∈ pre, a ∈ as := fun a ha => hpre ▸ List.mem_append_left _ ha
    clear hpre
    induction pre using List.reverseRecOn with
    | nil => exact fun x hx => (nomatch hx)
    | append_singleton pre a ih =>
      intro x hx
      rw [Desk.run_snoc, Desk.arrive] at hx
      rcases List.mem_append.1 hx with hx | hx
      · exact ih (fun a' ha' => hall a' (by simp [ha'])) x hx
      · split at hx
        · obtain rfl := List.mem_singleton.1 hx
          obtain ⟨m, hm, hpart⟩ := h.isPart a (hall a (by simp))
          exact hpart.key ▸ List.mem_map_of_mem hm
        · cases hx
  rw [sum_by_key L P.nodup _ _ hmem]
  refine congrArg List.sum (List.map_congr_left fun m hm => ?_)
  rw [(h.run_spec hm (hn m hm) hpre).2]
  split
  · obtain ⟨a, hmem, hkey, ha⟩ := h.exists_last hm
    simp [ha, hfg a hmem m hm hkey]
  · rfl

end

end Plan.Arrivals

/-! ### Receivers -/

/-- A receiver: what it does with a part, which may be to refuse it, its table of messages that are
not complete, and its counters of finished messages and of their bytes. -/
structure Receiver (σ α K β ε : Type*) where
  step : σ → α → Option (σ × List ε)
  table : σ → K → Option (Entry β)
  finished : σ → ℤ
  bytes : σ → ℤ

namespace Receiver

variable {σ : Type*} (R : Receiver σ α K β ε) (s : σ)

/-- Parts arrive, one after the other; what is issued for them is kept with their keys. -/
def run (as : List α) : Option (σ × List (K × ε)) :=
  as.foldlM (fun x a => (R.step x.1 a).map fun y => (y.1, x.2 ++ y.2.map fun e => (L.key a, e)))
    (s, [])

omit [DecidableEq K] in
omit [DecidableEq K] in
theorem run_snoc (as : List α) (a : α) : R.run L s (as ++ [a]) = (R.run L s as).bind fun x =>
    (R.step x.1 a).map fun y => (y.1, x.2 ++ y.2.map fun e => (L.key a, e)) := by
  rw [run, List.foldlM_append]
  rw [← run]
  cases R.run L s as <;> simp

omit [DecidableEq K] in
/-- A receiver that refuses no part refuses none of the first ones. -/
theorem run_of_append (h : R.run L s (pre ++ suf) ≠ none) : R.run L s pre ≠ none := by
  intro hpre
  refine h ?_
  rw [run] at hpre
  rw [run, List.foldlM_append, hpre]
  rfl

/-- What is seen of a receiver that was in state `s` before the first part. -/
def seen (as : List α) : Option (Seen K ε) :=
  (R.run L s as).map fun x =>
    { isOpen := fun k => R.table x.1 k ≠ none
      issued := fun k => (x.2.filter fun y => y.1 = k).map Prod.snd
      finished := R.finished x.1 - R.finished s
      bytes := R.bytes x.1 - R.bytes s }

/-- The entry of a part, with the part. -/
def entry (s : σ) (a : α) : Entry β := ((R.table s (L.key a)).getD ⟨0, []⟩).add (L.data a)

/-- A part completes its message. -/
def Completes (s : σ) (a : α) : Prop := L.expected a ≤ (R.entry L s a).count

instance (s : σ) (a : α) : Decidable (R.Completes L s a) := inferInstanceAs (Decidable (_ ≤ _))

/-- What a receiver has to do with a part in order to keep a desk. -/
structure Keeps (emit : α → List β → List ε) (size : α → ℕ) (s : σ) (a : α) (s' : σ)
    (issued : List ε) : Prop where
  table : ∀ k, R.table s' k =
    if k = L.key a then if R.Completes L s a then none else some (R.entry L s a) else R.table s k
  finished : R.finished s' = R.finished s + if R.Completes L s a then 1 else 0
  bytes : R.bytes s' = R.bytes s + if R.Completes L s a then (size a : ℤ) else 0
  issued : issued = if R.Completes L s a then emit a (R.entry L s a).data else []

/-- A receiver keeps a desk with the parts that it accepts. -/
def KeepsDesk (emit : α → List β → List ε) (size : α → ℕ) : Prop :=
  ∀ s a s' issued, R.step s a = some (s', issued) → R.Keeps L emit size s a s' issued

namespace KeepsDesk

variable {R L s} {emit : α → List β → List ε} {size : α → ℕ} {as : List α}

theorem run_eq (h : R.KeepsDesk L emit size) (hs : ∀ k, R.table s k = none)
    {x : σ × List (K × ε)} (hx : R.run L s as = some x) :
    (∀ k, R.table x.1 k = (Desk.run L as).table k) ∧
    x.2 = ((Desk.run L as).finished.flatMap fun y => (emit y.1 y.2).map fun e => (L.key y.1, e)) ∧
    R.finished x.1 = R.finished s + (Desk.run L as).finished.length ∧
    R.bytes x.1 = R.bytes s + ((Desk.run L as).finished.map fun y => (size y.1 : ℤ)).sum := by
  induction as using List.reverseRecOn generalizing x with
  | nil =>
    cases hx
    exact ⟨hs, rfl, by simp [Desk.init], by simp [Desk.init]⟩
  | append_singleton as a ih =>
    rw [run_snoc] at hx
    obtain ⟨x₀, hx₀, hx⟩ := Option.bind_eq_some_iff.1 hx
    obtain ⟨y, hy, rfl⟩ := Option.map_eq_some_iff.1 hx
    obtain ⟨htable, hissued, hfinished, hbytes⟩ := ih hx₀
    have hkeeps := h _ _ _ _ hy
    have hentry : R.entry L x₀.1 a = (Desk.run L as).entry L a := by
      rw [entry, Desk.entry, htable]
    have hdone : R.Completes L x₀.1 a ↔ (Desk.run L as).Completes L a := by
      rw [Completes, hentry, Desk.Completes]
    rw [Desk.run_snoc]
    refine ⟨fun k => ?_, ?_, ?_, ?_⟩
    · rw [hkeeps.table, Desk.arrive_table, hentry, htable]
      simp only [hdone]
    · simp only [hkeeps.issued, hissued, hentry, Desk.arrive, hdone]
      by_cases hc : (Desk.run L as).Completes L a <;> simp [hc]
    · simp only [hkeeps.finished, hfinished, Desk.arrive, hdone]
      by_cases hc : (Desk.run L as).Completes L a <;> simp [hc, add_assoc]
    · simp only [hkeeps.bytes, hbytes, Desk.arrive, hdone]
      by_cases hc : (Desk.run L as).Completes L a <;> simp [hc, add_assoc]

theorem entry_eq (h : R.KeepsDesk L emit size) (hs : ∀ k, R.table s k = none)
    {x : σ × List (K × ε)} (hx : R.run L s as = some x) (a : α) :
    R.entry L x.1 a = (Desk.run L as).entry L a := by
  rw [entry, Desk.entry, (h.run_eq hs hx).1]

theorem seen_eq (h : R.KeepsDesk L emit size) (hs : ∀ k, R.table s k = none)
    (hacc : R.run L s as ≠ none) : ∃ o, R.seen L s as = some o ∧
      (∀ k, o.isOpen k ↔ (Desk.run L as).table k ≠ none) ∧
      (∀ k, o.issued k = ((Desk.run L as).finished.filter fun y => L.key y.1 = k).flatMap fun y =>
        emit y.1 y.2) ∧
      o.finished = (Desk.run L as).finished.length ∧
      o.bytes = ((Desk.run L as).finished.map fun y => (size y.1 : ℤ)).sum := by
  obtain ⟨x, hx⟩ := Option.ne_none_iff_exists'.1 hacc
  obtain ⟨htable, hissued, hfinished, hbytes⟩ := h.run_eq hs hx
  refine ⟨_, by rw [seen, hx]; rfl, fun k => ?_, fun k => ?_, ?_, ?_⟩
  · simp only [htable]
  · simp only [hissued]
    exact issued_by_key L emit k _
  · simp [hfinished]
  · simp [hbytes]

/-- **When a receiver finishes each message once.**  A receiver that keeps a desk does so exactly if
it expects as many parts of each message as there are, accepts them all, and the last one of them
makes it issue what it should. -/
theorem exactlyOnce_iff {P : Plan M K β ε} (h : R.KeepsDesk L emit size)
    (hs : ∀ k, R.table s k = none) (has : P.Arrivals L size as) :
    ExactlyOnce L P (R.seen L s) as ↔
      (∀ m ∈ P.messages, max 1 (P.expected m) = (L.partsOf (P.key m) as).length) ∧
      R.run L s as ≠ none ∧
      ∀ m ∈ P.messages, ∀ a ∈ (L.partsOf (P.key m) as).getLast?,
        emit a (P.payload m) = P.events m := by
  have hself : ∀ k, L.Complete as as k := fun k => rfl
  have hnil : as = as ++ [] := by simp
  constructor
  · intro honce
    have hacc : R.run L s as ≠ none := by
      obtain ⟨o, ho, -⟩ := honce as [] hnil
      intro hno
      rw [seen, hno] at ho
      cases ho
    have hshows : ∀ pre suf, as = pre ++ suf → ∀ m ∈ P.messages,
        ((Desk.run L pre).table (P.key m) ≠ none ↔ L.UnderWay as pre (P.key m)) ∧
        (((Desk.run L pre).finished.filter fun y => L.key y.1 = P.key m).flatMap fun y =>
          emit y.1 y.2) = if L.Complete as pre (P.key m) then P.events m else [] := by
      intro pre suf hpre m hm
      obtain ⟨o, ho, hmsgs, -⟩ := honce pre suf hpre
      obtain ⟨o', ho', hopen, hissued, -⟩ := h.seen_eq hs (R.run_of_append L s (hpre ▸ hacc))
      rw [ho] at ho'
      cases ho'
      exact ⟨(hopen _).symm.trans (hmsgs m hm).1, (hissued _).symm.trans (hmsgs m hm).2⟩
    have hn : ∀ m ∈ P.messages, max 1 (P.expected m) = (L.partsOf (P.key m) as).length := by
      intro m hm
      obtain ⟨n, hn⟩ : ∃ n : ℕ, max 1 (P.expected m) = n := Int.eq_ofNat_of_zero_le (by omega)
      have hpos := List.length_pos_iff_ne_nil.2 (has.parts_ne m hm)
      have hrun := Desk.run_spec L (P.key m) n
      rcases lt_trichotomy n (L.partsOf (P.key m) as).length with hlt | heq | hlt
      · -- the message is finished too early
        obtain ⟨pre, suf, hpre, hlen⟩ := exists_moment L hlt.le
        obtain ⟨htable, -⟩ := hrun pre (fun a ha => has.expected_eq hm hn a
          (hpre ▸ List.mem_append_left _ ha)) hlen.le
        rw [if_pos (.inr hlen)] at htable
        refine absurd htable ((hshows pre suf hpre m hm).1.2 ⟨?_, ?_⟩)
        · omega
        · rw [Labels.Complete]
          omega
      · rw [hn, heq]
      · -- the message is never finished
        obtain ⟨htable, -⟩ := hrun as (has.expected_eq hm hn) hlt.le
        rw [if_neg (by omega)] at htable
        have hunder := (hshows as [] hnil m hm).1.1 (by simp [htable])
        exact absurd (hself _) hunder.2
    refine ⟨hn, hacc, fun m hm a ha => ?_⟩
    have hissued := (hshows as [] hnil m hm).2
    rw [if_pos (hself _), (has.run_spec hm (hn m hm) hnil).2, if_pos (hself _),
      Option.mem_def.1 ha, has.payload_eq hm] at hissued
    simpa using hissued
  · rintro ⟨hn, hacc, hemit⟩ pre suf hpre
    obtain ⟨o, ho, hopen, hissued, hfinished, hbytes⟩ :=
      h.seen_eq hs (R.run_of_append L s (hpre ▸ hacc))
    refine ⟨o, ho, fun m hm => ⟨?_, ?_⟩, ?_, ?_⟩
    · rw [hopen, (has.run_spec hm (hn m hm) hpre).1]
    · rw [hissued, (has.run_spec hm (hn m hm) hpre).2]
      split
      · obtain ⟨a, -, -, ha⟩ := has.exists_last hm
        simp [ha, has.payload_eq hm, hemit m hm a ha]
      · rfl
    · have hsum := has.sum_finished hn hpre (fun _ => 1) (fun _ => 1) fun _ _ _ _ _ => rfl
      rw [hfinished, ← hsum]
      simp
    · rw [hbytes]
      exact has.sum_finished hn hpre (fun a => (size a : ℤ)) (fun m => (P.size m : ℤ))
        fun a ha m hm hkey => by rw [(has.isPart_of_key hm ha hkey).size]

end KeepsDesk

end Receiver

end CodesSim.Assembly
