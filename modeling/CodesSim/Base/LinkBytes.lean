import CodesSim.Base.Stats
import Mathlib.Algebra.BigOperators.Ring.List
import Mathlib.Data.List.Permutation
import Mathlib.Tactic.Linarith
import Mathlib.Tactic.Ring

/-!
# The bytes of a packet on a link

Express mesh and fat tree put a packet on a link chunk by chunk, and a chunk counts with the chunk
size unless it is the last one and cut short.  Which one is the last they ask two messages: the size
of the packet is that of the chunk, but whether there is a remainder is read from the event that
triggers the send, in which nobody has set the size.

The bytes of a packet add up just if this does not matter (`exact_iff_agree`): there is no
remainder, or there is only one chunk, or the events for the last two chunks say the same.
-/

namespace CodesSim.LinkBytes

/-- A chunk is put on a link. -/
structure Crossing where
  /-- The size of its packet. -/
  size : ℕ
  chunkId : ℕ
  /-- The size in the event that triggers the send. -/
  trigger : ℕ
  /-- What the traffic of the link grows by. -/
  bytes : ℤ
  /-- The time for which the link is taken, but for delays that do not depend on the bytes. -/
  time : STime
  deriving DecidableEq

variable (chunkSize : ℕ)

/-- The number of chunks as it is counted when a chunk is sent. -/
def countedChunks (trigger size : ℕ) : ℕ :=
  let n := size / chunkSize
  let n := if trigger % chunkSize ≠ 0 then n + 1 else n
  if n = 0 then 1 else n

namespace Crossing

/-- The chunk is taken for the last one of a packet with a remainder. -/
def Short (x : Crossing) : Prop :=
  x.size % chunkSize ≠ 0 ∧ x.chunkId = countedChunks chunkSize x.trigger x.size - 1

instance (x : Crossing) : Decidable (x.Short chunkSize) := inferInstanceAs (Decidable (_ ∧ _))

/-- The bytes that a chunk counts with. -/
def portion (x : Crossing) : ℕ := if x.Short chunkSize then x.size % chunkSize else chunkSize

/-- A chunk counts with its portion on a link on which a byte takes the time `delay`. -/
structure Charged (delay : STime) (x : Crossing) : Prop where
  bytes : x.bytes = x.portion chunkSize
  time : x.time = delay * x.portion chunkSize

end Crossing

/-- The chunks of a packet, each once. -/
structure IsPacket (size : ℕ) (l : List Crossing) : Prop where
  sizes : ∀ x ∈ l, x.size = size
  ids : (l.map Crossing.chunkId).Perm
    (List.range (if size % chunkSize ≠ 0 then size / chunkSize + 1 else size / chunkSize))

/-- The bytes and times of a packet add up. -/
def Exact (delay : STime) (size : ℕ) (l : List Crossing) : Prop :=
  (l.map Crossing.bytes).sum = size ∧ (l.map Crossing.time).sum = size * delay

/-- The triggers of the last two chunks of a packet agree on whether there is a remainder, where
that matters. -/
def Agree (size : ℕ) (l : List Crossing) : Prop :=
  chunkSize ∣ size ∨ size < chunkSize ∨
    ∀ x ∈ l, ∀ y ∈ l, x.chunkId + 1 = size / chunkSize → y.chunkId = size / chunkSize →
      (chunkSize ∣ x.trigger ↔ chunkSize ∣ y.trigger)

variable {chunkSize} {size : ℕ} {l : List Crossing}

theorem numChunks_eq (hchunk : 0 < chunkSize) (hsize : 0 < size) :
    countedChunks chunkSize size size =
      if size % chunkSize ≠ 0 then size / chunkSize + 1 else size / chunkSize := by
  by_cases hrem : size % chunkSize = 0
  · have hpos := Nat.div_pos (Nat.le_of_dvd hsize (Nat.dvd_of_mod_eq_zero hrem)) hchunk
    simp [countedChunks, hrem, hpos.ne']
  · simp [countedChunks, hrem]

theorem isPacket_of_perm {n : ℕ} (h : (l.map fun x => (x.size, x.chunkId)).Perm
      ((List.range n).map fun i : ℕ => (size, i)))
    (hn : n = if size % chunkSize ≠ 0 then size / chunkSize + 1 else size / chunkSize) :
    IsPacket chunkSize size l := by
  constructor
  · intro x hx
    obtain ⟨i, -, hi⟩ := List.mem_map.mp (h.mem_iff.mp (List.mem_map_of_mem hx))
    exact (Prod.mk.inj hi).1.symm
  · have hids := h.map Prod.snd
    rw [List.map_map, List.map_map, hn] at hids
    simpa [Function.comp_def] using hids

theorem sum_portion (hsize : ∀ x ∈ l, x.size = size) :
    (l.map fun x => (x.portion chunkSize : ℤ)).sum +
      l.countP (·.Short chunkSize) * (chunkSize - size % chunkSize : ℤ) = l.length * chunkSize := by
  induction l with
  | nil => simp
  | cons x l ih =>
    have hx := hsize x List.mem_cons_self
    have ih := ih fun y hy => hsize y (List.mem_cons_of_mem x hy)
    rw [List.map_cons, List.sum_cons, List.length_cons, List.countP_cons, Crossing.portion]
    by_cases hshort : x.Short chunkSize
    · rw [if_pos hshort, if_pos (decide_eq_true hshort), hx]
      push_cast
      linarith
    · rw [if_neg hshort, if_neg (by simpa using hshort)]
      push_cast
      linarith

variable {delay : STime}

theorem sum_bytes (h : ∀ x ∈ l, x.Charged chunkSize delay) :
    (l.map Crossing.bytes).sum = (l.map fun x => (x.portion chunkSize : ℤ)).sum :=
  congrArg List.sum (List.map_congr_left fun x hx => (h x hx).bytes)

theorem sum_time (h : ∀ x ∈ l, x.Charged chunkSize delay) :
    (l.map Crossing.time).sum = delay * ((l.map Crossing.bytes).sum : ℤ) := by
  induction l with
  | nil => simp
  | cons x l ih =>
    have hx := h x List.mem_cons_self
    rw [List.map_cons, List.sum_cons, List.map_cons, List.sum_cons,
      ih fun y hy => h y (List.mem_cons_of_mem x hy), hx.time, hx.bytes]
    push_cast
    ring

theorem exact_iff_sum (h : ∀ x ∈ l, x.Charged chunkSize delay) :
    Exact delay size l ↔ (l.map fun x => (x.portion chunkSize : ℤ)).sum = size := by
  rw [Exact, sum_time h, sum_bytes h]
  constructor
  · exact fun h => h.1
  · intro h
    rw [h]
    exact ⟨rfl, by push_cast; ring⟩

theorem IsPacket.exists_sorted (hl : IsPacket chunkSize size l) :
    ∃ l' : List Crossing, l'.Perm l ∧ l'.map Crossing.chunkId =
      List.range (if size % chunkSize ≠ 0 then size / chunkSize + 1 else size / chunkSize) := by
  have hmap : List.Forall₂ (fun i (x : Crossing) => i = x.chunkId) (l.map Crossing.chunkId) l := by
    rw [List.forall₂_map_left_iff]
    exact List.forall₂_same.mpr fun x _ => rfl
  obtain ⟨l', hl', hperm⟩ := List.perm_comp_forall₂ hl.ids.symm hmap
  refine ⟨l', hperm, ?_⟩
  have heq := List.forall₂_map_right_iff.mpr hl'
  rw [List.forall₂_eq_eq_eq] at heq
  exact heq.symm

/-- **The chunks that count as short ones**, of a packet with a remainder. -/
theorem IsPacket.countP_short (hl : IsPacket chunkSize size l) (hchunk : 0 < chunkSize)
    (hrem : size % chunkSize ≠ 0) :
    l.countP (·.Short chunkSize) = 1 ↔ Agree chunkSize size l := by
  obtain ⟨l', hperm, hids⟩ := hl.exists_sorted
  rw [if_pos hrem] at hids
  rw [← hperm.countP_eq]
  have hsize : ∀ x ∈ l', x.size = size := fun x hx => hl.sizes x (hperm.mem_iff.mp hx)
  cases hk : size / chunkSize with
  | zero =>
    -- there is one chunk, and it is the last one whatever the trigger says
    have hlt : size < chunkSize := (Nat.div_eq_zero_iff_lt hchunk).mp hk
    rw [hk] at hids
    obtain ⟨x, l'', rfl, hx, hl''⟩ := List.map_eq_cons_iff.mp hids
    obtain rfl := List.map_eq_nil_iff.mp hl''
    have hshort : x.Short chunkSize := by
      rw [Crossing.Short, countedChunks, hsize x List.mem_cons_self, hk, hx]
      refine ⟨hrem, ?_⟩
      split_ifs <;> rfl
    refine iff_of_true ?_ (.inr (.inl hlt))
    rw [List.countP_singleton, if_pos (decide_eq_true hshort)]
  | succ j =>
    have hge : ¬ size < chunkSize := fun hlt => by
      rw [Nat.div_eq_of_lt hlt] at hk
      cases hk
    rw [hk, List.range_succ, List.range_succ, List.append_assoc] at hids
    obtain ⟨l₁, l₂, rfl, hids₁, hids₂⟩ := List.map_eq_append_iff.mp hids
    obtain ⟨a, l₃, rfl, ha, hids₃⟩ := List.map_eq_cons_iff.mp hids₂
    obtain ⟨b, l₄, rfl, hb, hids₄⟩ := List.map_eq_cons_iff.mp hids₃
    obtain rfl := List.map_eq_nil_iff.mp hids₄
    have hlow : ∀ x ∈ l₁, x.chunkId < j := fun x hx =>
      List.mem_range.mp (hids₁ ▸ List.mem_map_of_mem hx)
    have hshort : ∀ x ∈ l₁ ++ [a, b], x.Short chunkSize ↔
        x.chunkId = if chunkSize ∣ x.trigger then j else j + 1 := by
      intro x hx
      have hdvd : chunkSize ∣ x.trigger ↔ x.trigger % chunkSize = 0 := Nat.dvd_iff_mod_eq_zero
      rw [Crossing.Short, countedChunks, hsize x hx, hk]
      by_cases ht : x.trigger % chunkSize = 0 <;> simp [hdvd, ht, hrem]
    have hnone : l₁.countP (·.Short chunkSize) = 0 := by
      rw [List.countP_eq_zero]
      intro x hx hs
      have hs := (hshort x (List.mem_append_left _ hx)).mp (of_decide_eq_true hs)
      have hlt := hlow x hx
      split_ifs at hs <;> omega
    have hagree : Agree chunkSize size l ↔ (chunkSize ∣ a.trigger ↔ chunkSize ∣ b.trigger) := by
      constructor
      · rintro (hdvd | hlt | h)
        · exact absurd (Nat.mod_eq_zero_of_dvd hdvd) hrem
        · exact absurd hlt hge
        · exact h a (hperm.mem_iff.mp (by simp)) b (hperm.mem_iff.mp (by simp)) (by rw [ha, hk])
            (by rw [hb, hk])
      · refine fun h => .inr (.inr fun x hx y hy hxk hyk => ?_)
        obtain rfl : x = a := by
          rcases List.mem_append.mp (hperm.mem_iff.mpr hx) with hx | hx
          · have := hlow x hx
            omega
          · rcases List.mem_pair.mp hx with rfl | rfl
            · rfl
            · omega
        obtain rfl : y = b := by
          rcases List.mem_append.mp (hperm.mem_iff.mpr hy) with hy | hy
          · have := hlow y hy
            omega
          · rcases List.mem_pair.mp hy with rfl | rfl
            · omega
            · rfl
        exact h
    have ha' := hshort a (by simp)
    have hb' := hshort b (by simp)
    rw [hagree, List.countP_append, hnone, zero_add, List.countP_cons, List.countP_singleton]
    simp only [decide_eq_true_eq, ha', hb', ha, hb]
    by_cases hta : chunkSize ∣ a.trigger <;> by_cases htb : chunkSize ∣ b.trigger <;>
      simp [hta, htb]

/-- **Exactly when the bytes add up.** -/
theorem exact_iff_agree (hchunk : 0 < chunkSize) (hl : IsPacket chunkSize size l)
    (hcharged : ∀ x ∈ l, x.Charged chunkSize delay) :
    Exact delay size l ↔ Agree chunkSize size l := by
  have hsum := @sum_portion chunkSize size l hl.sizes
  have hlen := hl.ids.length_eq
  rw [List.length_map, List.length_range] at hlen
  rw [exact_iff_sum hcharged]
  by_cases hrem : size % chunkSize = 0
  · have hnone : l.countP (·.Short chunkSize) = 0 := by
      rw [List.countP_eq_zero]
      intro x hx hs
      exact (of_decide_eq_true hs : x.Short chunkSize).1 (hl.sizes x hx ▸ hrem)
    rw [if_neg (not_not.mpr hrem)] at hlen
    rw [hnone, hlen] at hsum
    refine iff_of_true ?_ (.inl (Nat.dvd_of_mod_eq_zero hrem))
    rw [Nat.cast_zero, zero_mul, add_zero] at hsum
    rw [hsum, ← Nat.cast_mul, Nat.div_mul_cancel (Nat.dvd_of_mod_eq_zero hrem)]
  · rw [if_pos hrem] at hlen
    rw [← hl.countP_short hchunk hrem]
    have hlt := Nat.mod_lt size hchunk
    have hdiv : (chunkSize : ℤ) * (size / chunkSize : ℕ) + (size % chunkSize : ℕ) = size := by
      exact_mod_cast Nat.div_add_mod size chunkSize
    rw [hlen, ← Int.natCast_mod] at hsum
    push_cast at hsum hdiv
    have hmissing : ((l.countP (·.Short chunkSize) : ℤ) - 1) * (chunkSize - size % chunkSize) =
        size - (l.map fun x => (x.portion chunkSize : ℤ)).sum := by
      linarith
    have hpos : (chunkSize : ℤ) - size % chunkSize ≠ 0 := by
      rw [← Int.natCast_mod]
      omega
    constructor
    · intro h
      rw [h, sub_self] at hmissing
      have := (mul_eq_zero.mp hmissing).resolve_right hpos
      omega
    · intro h
      rw [h, Nat.cast_one, sub_self, zero_mul] at hmissing
      exact (sub_eq_zero.mp hmissing.symm).symm

end CodesSim.LinkBytes
