import Mathlib.Data.Finset.Lattice.Fold

/-!
# Barriers on a rooted tree

A barrier on a tree is two waves.  On the way up a leaf reports to its parent when it joins, and an
inner node when all its children have reported; when the root has heard all its children it starts
the way down, on which every node lets its children go.  `Wave` says how far the two waves are, and
what is on its way follows from that (`RootedTree.Pending`).

* `RootedTree.pending_deliver` : what is on its way after a delivery;
* `RootedTree.Sound.deliver` : how far the waves can be is preserved;
* `RootedTree.Sound.joined_of_out` : when a node is let go, every **leaf** has joined.  Nothing is
  said of the inner nodes: they report without having joined themselves;
* `RootedTree.out_of_quiet` : when nothing is on its way, all have joined and all were let go;
* `RootedTree.Sound.weight_le` : the number of deliveries.
-/

namespace CodesSim

/-- A rooted tree on a finite set of nodes.  The rank falls towards the root. -/
structure RootedTree (ν : Type*) where
  nodes : Finset ν
  root : ν
  parent : ν → ν
  rank : ν → ℕ
  root_mem : root ∈ nodes
  parent_mem : ∀ n ∈ nodes, n ≠ root → parent n ∈ nodes
  rank_parent : ∀ n ∈ nodes, n ≠ root → rank (parent n) < rank n

namespace RootedTree

variable {ν : Type*} [DecidableEq ν] (T : RootedTree ν)

def children (n : ν) : Finset ν := T.nodes.filter fun c => c ≠ T.root ∧ T.parent c = n

variable {T}

@[simp] theorem mem_children {n c : ν} :
    c ∈ T.children n ↔ c ∈ T.nodes ∧ c ≠ T.root ∧ T.parent c = n := Finset.mem_filter

theorem descend {P : ν → Prop} (hroot : P T.root)
    (hstep : ∀ n ∈ T.nodes, n ≠ T.root → P (T.parent n) → P n) : ∀ n ∈ T.nodes, P n := by
  intro n hn
  induction h : T.rank n using Nat.strong_induction_on generalizing n with
  | _ k ih =>
    by_cases hr : n = T.root
    · rw [hr]
      exact hroot
    · exact hstep n hn hr
        (ih _ (h ▸ T.rank_parent n hn hr) (T.parent n) (T.parent_mem n hn hr) rfl)

/-- Induction from the leaves to the root. -/
theorem ascend {P : ν → Prop} (hstep : ∀ n ∈ T.nodes, (∀ c ∈ T.children n, P c) → P n) :
    ∀ n ∈ T.nodes, P n := by
  intro n hn
  -- the distance to the deepest rank falls on the way to the leaves
  induction h : T.nodes.sup T.rank - T.rank n using Nat.strong_induction_on generalizing n with
  | _ k ih =>
    refine hstep n hn fun c hc => ?_
    obtain ⟨hmem, hr, hparent⟩ := mem_children.1 hc
    have hlt : T.rank n < T.rank c := hparent ▸ T.rank_parent c hmem hr
    have hle : T.rank c ≤ T.nodes.sup T.rank := Finset.le_sup hmem
    exact ih _ (by omega) c hmem rfl

/-! ### The two waves -/

/-- How far a barrier is: who has joined, whose report has reached its parent, and which node other
than the root was let go. -/
structure Wave (ν : Type*) where
  (joined heard freed : Finset ν)

/-- Something on its way: the start of a node, its report to its parent, its release. -/
inductive Tag (ν : Type*) where
  | join (n : ν)
  | up (n : ν)
  | down (n : ν)

def Wave.start : Wave ν := ⟨∅, ∅, ∅⟩

def Wave.deliver (w : Wave ν) : Tag ν → Wave ν
  | .join n => { w with joined := insert n w.joined }
  | .up n => { w with heard := insert n w.heard }
  | .down n => { w with freed := insert n w.freed }

variable (T) in
/-- A node has reported, or started the way down: a leaf when it has joined, an inner node when it
has heard its children. -/
def Ready (w : Wave ν) (n : ν) : Prop :=
  T.children n ⊆ w.heard ∧ (T.children n = ∅ → n ∈ w.joined)

variable (T) in
/-- A node was let go. -/
def Out (w : Wave ν) (n : ν) : Prop := (n = T.root ∧ T.Ready w n) ∨ (n ≠ T.root ∧ n ∈ w.freed)

variable (T) in
/-- What is on its way. -/
def Pending (w : Wave ν) : Tag ν → Prop
  | .join n => n ∈ T.nodes ∧ n ∉ w.joined
  | .up n => n ∈ T.nodes ∧ n ≠ T.root ∧ T.Ready w n ∧ n ∉ w.heard
  | .down n => n ∈ T.nodes ∧ n ≠ T.root ∧ T.Out w (T.parent n) ∧ n ∉ w.freed

variable (T) in
/-- What a delivery sets on its way. -/
def Spawns (w : Wave ν) : Tag ν → Tag ν → Prop
  | .join n, .up m => m = n ∧ T.children n = ∅ ∧ n ≠ T.root
  | .up c, .up m => m = T.parent c ∧ m ≠ T.root ∧ T.children m ⊆ insert c w.heard
  | .up c, .down m => T.parent c = T.root ∧ m ∈ T.children T.root ∧
      T.children T.root ⊆ insert c w.heard
  | .down n, .down m => m ∈ T.children n
  | _, _ => False

variable (T) in
/-- What the two waves have done is consistent. -/
structure Sound (w : Wave ν) : Prop where
  joined : ∀ n ∈ w.joined, n ∈ T.nodes
  heard : ∀ n ∈ w.heard, n ∈ T.nodes ∧ n ≠ T.root ∧ T.Ready w n
  freed : ∀ n ∈ w.freed, n ∈ T.nodes ∧ n ≠ T.root ∧ T.Out w (T.parent n)

theorem Sound.start : T.Sound (Wave.start) := ⟨by simp [Wave.start], by simp [Wave.start],
  by simp [Wave.start]⟩

variable {w : Wave ν} {t t' : Tag ν} {n c : ν}

/-! ### What a delivery changes -/

theorem ready_deliver_join :
    T.Ready (w.deliver (.join n)) c ↔ T.Ready w c ∨ (T.children n = ∅ ∧ c = n) := by
  simp only [Ready, Wave.deliver, Finset.mem_insert]
  constructor
  · rintro ⟨hsub, hleaf⟩
    by_cases hc : T.children c = ∅ ∧ c = n
    · exact .inr ⟨hc.2 ▸ hc.1, hc.2⟩
    · exact .inl ⟨hsub, fun he => (hleaf he).resolve_left fun hn => hc ⟨he, hn⟩⟩
  · rintro (⟨hsub, hleaf⟩ | ⟨he, rfl⟩)
    · exact ⟨hsub, fun h => .inr (hleaf h)⟩
    · exact ⟨by simp [he], fun _ => .inl rfl⟩

theorem ready_of_sub (hc : c ∈ T.children n) (h : T.children n ⊆ w.heard) : T.Ready w n :=
  ⟨h, fun he => absurd hc (by simp [he])⟩

theorem ready_deliver_up (hc : c ∈ T.nodes) (hr : c ≠ T.root) :
    T.Ready (w.deliver (.up c)) n ↔
      T.Ready w n ∨ (n = T.parent c ∧ T.children n ⊆ insert c w.heard) := by
  simp only [Ready, Wave.deliver]
  constructor
  · rintro ⟨hsub, hleaf⟩
    by_cases hn : n = T.parent c
    · exact .inr ⟨hn, hsub⟩
    · -- the report of a child of another node does not count here
      refine .inl ⟨fun m hm => (Finset.mem_insert.1 (hsub hm)).resolve_left ?_, hleaf⟩
      rintro rfl
      exact hn (mem_children.1 hm).2.2.symm
  · rintro (⟨hsub, hleaf⟩ | ⟨rfl, hsub⟩)
    · exact ⟨hsub.trans (Finset.subset_insert _ _), hleaf⟩
    · exact ready_of_sub (w := ⟨w.joined, insert c w.heard, w.freed⟩)
        (mem_children.2 ⟨hc, hr, rfl⟩) hsub

theorem not_ready_of_up (h : T.Pending w (.up c)) : ¬ T.Ready w (T.parent c) := by
  intro hready
  exact h.2.2.2 (hready.1 (mem_children.2 ⟨h.1, h.2.1, rfl⟩))

theorem not_ready_of_join (h : T.Pending w (.join n)) (he : T.children n = ∅) : ¬ T.Ready w n :=
  fun hready => h.2 (hready.2 he)

theorem Ready.deliver (h : T.Ready w n) (ht : T.Pending w t) : T.Ready (w.deliver t) n := by
  cases t with
  | join m => exact ready_deliver_join.2 (.inl h)
  | up m => exact (ready_deliver_up ht.1 ht.2.1).2 (.inl h)
  | down m => exact h

theorem Out.deliver (h : T.Out w n) (ht : T.Pending w t) : T.Out (w.deliver t) n := by
  obtain ⟨hr, hready⟩ | ⟨hr, hfreed⟩ := h
  · exact .inl ⟨hr, hready.deliver ht⟩
  · refine .inr ⟨hr, ?_⟩
    cases t with
    | join m => exact hfreed
    | up m => exact hfreed
    | down m => exact Finset.mem_insert_of_mem hfreed

/-- **The waves stay sound.** -/
theorem Sound.deliver (h : T.Sound w) (ht : T.Pending w t) : T.Sound (w.deliver t) := by
  have hheard : ∀ n ∈ w.heard, n ∈ T.nodes ∧ n ≠ T.root ∧ T.Ready (w.deliver t) n := by
    intro n hn
    obtain ⟨hmem, hr, hready⟩ := h.heard n hn
    exact ⟨hmem, hr, hready.deliver ht⟩
  have hfreed : ∀ n ∈ w.freed, n ∈ T.nodes ∧ n ≠ T.root ∧ T.Out (w.deliver t) (T.parent n) := by
    intro n hn
    obtain ⟨hmem, hr, hout⟩ := h.freed n hn
    exact ⟨hmem, hr, hout.deliver ht⟩
  cases t with
  | join m => exact ⟨Finset.forall_mem_insert _ _ _ |>.2 ⟨ht.1, h.joined⟩, hheard, hfreed⟩
  | up m =>
    have hm := ht.2.2.1.deliver ht
    exact ⟨h.joined, Finset.forall_mem_insert _ _ _ |>.2 ⟨⟨ht.1, ht.2.1, hm⟩, hheard⟩, hfreed⟩
  | down m =>
    have hm := ht.2.2.1.deliver ht
    exact ⟨h.joined, hheard, Finset.forall_mem_insert _ _ _ |>.2 ⟨⟨ht.1, ht.2.1, hm⟩, hfreed⟩⟩

/-! ### The node that a delivery concerns -/

variable (T) in
/-- To which node something is on its way. -/
def dest : Tag ν → ν
  | .join n => n
  | .up n => T.parent n
  | .down n => n

theorem heard_deliver (hn : n ≠ T.dest t) (hc : c ∈ T.children n) :
    c ∈ (w.deliver t).heard ↔ c ∈ w.heard := by
  cases t with
  | up m =>
    have hcm : c ≠ m := by
      rintro rfl
      exact hn (mem_children.1 hc).2.2.symm
    simp [Wave.deliver, hcm]
  | _ => rfl

theorem joined_deliver (hn : n ≠ T.dest t) : n ∈ (w.deliver t).joined ↔ n ∈ w.joined := by
  cases t with
  | join m => simp [Wave.deliver, show n ≠ m from hn]
  | _ => rfl

theorem ready_deliver (hn : n ≠ T.dest t) (ht : T.Pending w t) :
    T.Ready (w.deliver t) n ↔ T.Ready w n := by
  refine ⟨fun h => ⟨fun c hc => (heard_deliver hn hc).1 (h.1 hc), fun he => ?_⟩,
    fun h => h.deliver ht⟩
  exact (joined_deliver hn).1 (h.2 he)

theorem out_deliver (hn : n ≠ T.dest t) (ht : T.Pending w t) :
    T.Out (w.deliver t) n ↔ T.Out w n := by
  rw [Out, Out, ready_deliver hn ht]
  cases t with
  | down m => simp [Wave.deliver, show n ≠ m from hn]
  | _ => rfl

/-! ### Counters -/

variable (T) in
/-- The reports a node has counted; the counter is cleared when they are complete. -/
def count (w : Wave ν) (n : ν) : ℕ :=
  if T.children n ⊆ w.heard then 0 else (T.children n ∩ w.heard).card

theorem count_deliver (hn : n ≠ T.dest t) : T.count (w.deliver t) n = T.count w n := by
  have hsub : T.children n ⊆ (w.deliver t).heard ↔ T.children n ⊆ w.heard :=
    forall₂_congr fun c hc => heard_deliver hn hc
  have hinter : T.children n ∩ (w.deliver t).heard = T.children n ∩ w.heard := by
    ext c
    simp only [Finset.mem_inter]
    exact and_congr_right fun hc => heard_deliver hn hc
  rw [count, count, hinter]
  simp only [hsub]

theorem children_sub_iff (ht : T.Pending w (.up c)) :
    T.children (T.parent c) ⊆ insert c w.heard ↔
      T.count w (T.parent c) + 1 = (T.children (T.parent c)).card := by
  have hchild : c ∈ T.children (T.parent c) := mem_children.2 ⟨ht.1, ht.2.1, rfl⟩
  have hnot : ¬ T.children (T.parent c) ⊆ w.heard := fun h => ht.2.2.2 (h hchild)
  have hcard : (T.children (T.parent c) ∩ insert c w.heard).card =
      (T.children (T.parent c) ∩ w.heard).card + 1 := by
    rw [Finset.inter_insert_of_mem hchild, Finset.card_insert_of_notMem]
    exact fun h => ht.2.2.2 (Finset.mem_inter.1 h).2
  rw [count, if_neg hnot, ← hcard, ← Finset.inter_eq_left]
  refine ⟨fun h => by rw [h], fun h => ?_⟩
  exact Finset.eq_of_subset_of_card_le Finset.inter_subset_left h.ge

theorem count_deliver_up (ht : T.Pending w (.up c)) :
    T.count (w.deliver (.up c)) (T.parent c) =
      if T.count w (T.parent c) + 1 = (T.children (T.parent c)).card then 0
      else T.count w (T.parent c) + 1 := by
  have hchild : c ∈ T.children (T.parent c) := mem_children.2 ⟨ht.1, ht.2.1, rfl⟩
  have hnot : ¬ T.children (T.parent c) ⊆ w.heard := fun h => ht.2.2.2 (h hchild)
  simp only [← children_sub_iff ht]
  change (if T.children (T.parent c) ⊆ insert c w.heard then 0
    else (T.children (T.parent c) ∩ insert c w.heard).card) = _
  rw [count, if_neg hnot, Finset.inter_insert_of_mem hchild, Finset.card_insert_of_notMem]
  exact fun h => ht.2.2.2 (Finset.mem_inter.1 h).2

/-! ### What is on its way -/

/-- What is set on its way was not on its way. -/
theorem not_pending_of_spawns (ht : T.Pending w t) (hs : T.Spawns w t t') :
    ¬ T.Pending w t' := by
  intro hp
  cases t with
  | join n =>
    cases t' with
    | up m =>
      obtain ⟨rfl, he, -⟩ := hs
      exact not_ready_of_join ht he hp.2.2.1
    | _ => exact hs
  | up c =>
    cases t' with
    | up m =>
      obtain ⟨rfl, -, -⟩ := hs
      exact not_ready_of_up ht hp.2.2.1
    | down m =>
      obtain ⟨hroot, hm, -⟩ := hs
      obtain ⟨-, hmr, hmp⟩ := mem_children.1 hm
      have hout := hp.2.2.1
      rw [hmp] at hout
      exact not_ready_of_up ht (hroot ▸ (hout.resolve_right fun h => h.1 rfl).2)
    | join m => exact hs
  | down n =>
    cases t' with
    | down m =>
      obtain ⟨-, -, rfl⟩ := mem_children.1 hs
      obtain ⟨hr, -⟩ | ⟨-, hfreed⟩ := hp.2.2.1
      · exact ht.2.1 hr
      · exact ht.2.2.2 hfreed
    | _ => exact hs

theorem Pending.deliver (h : T.Pending w t') (ht : T.Pending w t) (hne : t' ≠ t) :
    T.Pending (w.deliver t) t' := by
  cases t' with
  | join n =>
    refine ⟨h.1, ?_⟩
    cases t with
    | join m =>
      have hnm : n ≠ m := fun he => hne (congrArg Tag.join he)
      exact fun hn => h.2 ((Finset.mem_insert.1 hn).resolve_left hnm)
    | _ => exact h.2
  | up n =>
    refine ⟨h.1, h.2.1, h.2.2.1.deliver ht, ?_⟩
    cases t with
    | up m =>
      have hnm : n ≠ m := fun he => hne (congrArg Tag.up he)
      exact fun hn => h.2.2.2 ((Finset.mem_insert.1 hn).resolve_left hnm)
    | _ => exact h.2.2.2
  | down n =>
    refine ⟨h.1, h.2.1, h.2.2.1.deliver ht, ?_⟩
    cases t with
    | down m =>
      have hnm : n ≠ m := fun he => hne (congrArg Tag.down he)
      exact fun hn => h.2.2.2 ((Finset.mem_insert.1 hn).resolve_left hnm)
    | _ => exact h.2.2.2

theorem up_of_spawns (ht : T.Pending w t) (hr : n ≠ T.root) (hnot : ¬ T.Ready w n)
    (hready : T.Ready (w.deliver t) n) : T.Spawns w t (.up n) := by
  cases t with
  | join m =>
    obtain hw | ⟨he, rfl⟩ := ready_deliver_join.1 hready
    · exact absurd hw hnot
    · exact ⟨rfl, he, hr⟩
  | up m =>
    obtain hw | ⟨rfl, hsub⟩ := (ready_deliver_up ht.1 ht.2.1).1 hready
    · exact absurd hw hnot
    · exact ⟨rfl, hr, hsub⟩
  | down m => exact absurd hready hnot

/-- The children of a node that was let go now are let go next. -/
theorem down_of_spawns (ht : T.Pending w t) (hn : n ∈ T.nodes) (hr : n ≠ T.root)
    (hnot : ¬ T.Out w (T.parent n)) (hout : T.Out (w.deliver t) (T.parent n)) :
    T.Spawns w t (.down n) := by
  have hchild : n ∈ T.children (T.parent n) := mem_children.2 ⟨hn, hr, rfl⟩
  obtain ⟨hpr, hready⟩ | ⟨hpr, hfreed⟩ := hout
  · have hnotready : ¬ T.Ready w (T.parent n) := fun hw => hnot (.inl ⟨hpr, hw⟩)
    cases t with
    | join m =>
      obtain hw | ⟨he, rfl⟩ := ready_deliver_join.1 hready
      · exact absurd hw hnotready
      · exact absurd hchild (by simp [he])
    | up m =>
      obtain hw | ⟨heq, hsub⟩ := (ready_deliver_up ht.1 ht.2.1).1 hready
      · exact absurd hw hnotready
      · rw [hpr] at hchild hsub
        exact ⟨heq ▸ hpr, hchild, hsub⟩
    | down m => exact absurd hready hnotready
  · have hnotfreed : T.parent n ∉ w.freed := fun hw => hnot (.inr ⟨hpr, hw⟩)
    cases t with
    | down m =>
      have hm : T.parent n = m := (Finset.mem_insert.1 hfreed).resolve_right hnotfreed
      rw [hm] at hchild
      exact hchild
    | _ => exact absurd hfreed hnotfreed

theorem Sound.pending_of_spawns (h : T.Sound w) (ht : T.Pending w t) (hs : T.Spawns w t t') :
    T.Pending (w.deliver t) t' := by
  cases t with
  | join n =>
    cases t' with
    | up m =>
      obtain ⟨rfl, he, hr⟩ := hs
      refine ⟨ht.1, hr, ready_deliver_join.2 (.inr ⟨he, rfl⟩), fun hm => ?_⟩
      exact not_ready_of_join ht he (h.heard _ hm).2.2
    | _ => exact hs.elim
  | up c =>
    have hchild : c ∈ T.children (T.parent c) := mem_children.2 ⟨ht.1, ht.2.1, rfl⟩
    cases t' with
    | up m =>
      obtain ⟨rfl, hr, hsub⟩ := hs
      refine ⟨T.parent_mem c ht.1 ht.2.1, hr,
        (ready_deliver_up ht.1 ht.2.1).2 (.inr ⟨rfl, hsub⟩), fun hm => ?_⟩
      obtain hm | hm := Finset.mem_insert.1 hm
      · exact absurd (T.rank_parent c ht.1 ht.2.1) (by rw [hm]; exact lt_irrefl _)
      · exact not_ready_of_up ht (h.heard _ hm).2.2
    | down m =>
      obtain ⟨hroot, hm, hsub⟩ := hs
      obtain ⟨hmem, hmr, hmp⟩ := mem_children.1 hm
      have hready : T.Ready (w.deliver (.up c)) T.root :=
        (ready_deliver_up ht.1 ht.2.1).2 (.inr ⟨hroot.symm, hsub⟩)
      refine ⟨hmem, hmr, .inl ⟨hmp, hmp ▸ hready⟩, fun hf => ?_⟩
      have hout := (h.freed m hf).2.2
      rw [hmp] at hout
      exact not_ready_of_up ht (hroot ▸ (hout.resolve_right fun h => h.1 rfl).2)
    | join m => exact hs.elim
  | down n =>
    cases t' with
    | down m =>
      obtain ⟨hmem, hmr, rfl⟩ := mem_children.1 hs
      refine ⟨hmem, hmr, .inr ⟨ht.2.1, Finset.mem_insert_self _ _⟩, fun hf => ?_⟩
      obtain hf | hf := Finset.mem_insert.1 hf
      · exact absurd (T.rank_parent m hmem hmr) (by rw [← hf]; exact lt_irrefl _)
      · obtain ⟨hr, -⟩ | ⟨-, hfreed⟩ := (h.freed m hf).2.2
        · exact ht.2.1 hr
        · exact ht.2.2.2 hfreed
    | _ => exact hs.elim

/-- **What is on its way after a delivery.** -/
theorem Sound.pending_deliver (h : T.Sound w) (ht : T.Pending w t) :
    T.Pending (w.deliver t) t' ↔ (T.Pending w t' ∧ t' ≠ t) ∨ T.Spawns w t t' := by
  refine ⟨fun hp => ?_, fun hp => hp.elim (fun hp => hp.1.deliver ht hp.2)
    (h.pending_of_spawns ht)⟩
  by_cases hw : T.Pending w t'
  · refine .inl ⟨hw, ?_⟩
    -- what was delivered is on its way no more
    rintro rfl
    cases t' with
    | join n => exact hp.2 (Finset.mem_insert_self _ _)
    | up n => exact hp.2.2.2 (Finset.mem_insert_self _ _)
    | down n => exact hp.2.2.2 (Finset.mem_insert_self _ _)
  · refine .inr ?_
    cases t' with
    | join n =>
      refine absurd ⟨hp.1, fun hn => hp.2 ?_⟩ hw
      cases t with
      | join m => exact Finset.mem_insert_of_mem hn
      | _ => exact hn
    | up n =>
      have hheard : n ∉ w.heard := fun hn => hp.2.2.2 <| by
        cases t with
        | up m => exact Finset.mem_insert_of_mem hn
        | _ => exact hn
      exact up_of_spawns ht hp.2.1 (fun hr => hw ⟨hp.1, hp.2.1, hr, hheard⟩) hp.2.2.1
    | down n =>
      have hfreed : n ∉ w.freed := fun hn => hp.2.2.2 <| by
        cases t with
        | down m => exact Finset.mem_insert_of_mem hn
        | _ => exact hn
      exact down_of_spawns ht hp.1 hp.2.1 (fun ho => hw ⟨hp.1, hp.2.1, ho, hfreed⟩) hp.2.2.1

/-! ### The barrier -/

theorem Sound.ready_root_of_out (h : T.Sound w) (hn : n ∈ T.nodes) (hout : T.Out w n) :
    T.Ready w T.root := by
  revert hout
  refine T.descend (P := fun n => T.Out w n → T.Ready w T.root) ?_ ?_ n hn
  · intro hout
    exact (hout.resolve_right fun h => h.1 rfl).2
  · intro n hn hr ih hout
    obtain ⟨hroot, -⟩ | ⟨-, hfreed⟩ := hout
    · exact absurd hroot hr
    · exact ih (h.freed n hfreed).2.2

theorem Sound.ready_of_ready_root (h : T.Sound w) (hroot : T.Ready w T.root) :
    ∀ n ∈ T.nodes, T.Ready w n := by
  refine T.descend hroot fun n hn hr ih => ?_
  exact (h.heard n (ih.1 (mem_children.2 ⟨hn, hr, rfl⟩))).2.2

/-- **The barrier holds for the leaves.** -/
theorem Sound.joined_of_out (h : T.Sound w) (hn : n ∈ T.nodes) (hout : T.Out w n) :
    ∀ m ∈ T.nodes, T.children m = ∅ → m ∈ w.joined := by
  intro m hm he
  exact (h.ready_of_ready_root (h.ready_root_of_out hn hout) m hm).2 he

theorem out_of_quiet (hq : ∀ t, ¬ T.Pending w t) :
    ∀ n ∈ T.nodes, n ∈ w.joined ∧ T.Ready w n ∧ T.Out w n := by
  have hjoined : ∀ n ∈ T.nodes, n ∈ w.joined := by
    intro n hn
    by_contra hnot
    exact hq (.join n) ⟨hn, hnot⟩
  have hready : ∀ n ∈ T.nodes, T.Ready w n := by
    refine T.ascend fun n hn ih => ⟨fun c hc => ?_, fun _ => hjoined n hn⟩
    by_contra hnot
    have hmem := mem_children.1 hc
    exact hq (.up c) ⟨hmem.1, hmem.2.1, ih c hc, hnot⟩
  intro n hn
  refine ⟨hjoined n hn, hready n hn, ?_⟩
  refine T.descend (P := fun n => T.Out w n) (.inl ⟨rfl, hready _ T.root_mem⟩) ?_ n hn
  intro n hn hr ih
  refine .inr ⟨hr, ?_⟩
  by_contra hnot
  exact hq (.down n) ⟨hn, hr, ih, hnot⟩

theorem not_ready_start : ¬ T.Ready Wave.start n := by
  rintro ⟨hsub, hleaf⟩
  have he : T.children n = ∅ := Finset.subset_empty.1 hsub
  exact absurd (hleaf he) (Finset.notMem_empty n)

theorem not_out_start : ¬ T.Out Wave.start n := by
  rintro (⟨-, hready⟩ | ⟨-, hfreed⟩)
  · exact not_ready_start hready
  · exact Finset.notMem_empty n hfreed

theorem pending_start : T.Pending Wave.start t ↔ ∃ n ∈ T.nodes, t = .join n := by
  cases t with
  | join n =>
    simp only [Pending, Tag.join.injEq]
    constructor
    · exact fun h => ⟨n, h.1, rfl⟩
    · rintro ⟨m, hm, rfl⟩
      exact ⟨hm, Finset.notMem_empty _⟩
  | up n => simp [Pending, not_ready_start]
  | down n => simp [Pending, not_out_start]

theorem count_start : T.count Wave.start n = 0 := by
  rw [count]
  split_ifs
  · rfl
  · exact Finset.card_eq_zero.2 (Finset.inter_empty _)

/-! ### The number of deliveries -/

/-- The deliveries made. -/
def Wave.weight (w : Wave ν) : ℕ := w.joined.card + w.heard.card + w.freed.card

theorem weight_deliver (ht : T.Pending w t) : (w.deliver t).weight = w.weight + 1 := by
  cases t with
  | join n =>
    have hcard : (insert n w.joined).card = w.joined.card + 1 := Finset.card_insert_of_notMem ht.2
    simp only [Wave.weight, Wave.deliver]
    omega
  | up n =>
    have hcard : (insert n w.heard).card = w.heard.card + 1 := Finset.card_insert_of_notMem ht.2.2.2
    simp only [Wave.weight, Wave.deliver]
    omega
  | down n =>
    have hcard : (insert n w.freed).card = w.freed.card + 1 := Finset.card_insert_of_notMem ht.2.2.2
    simp only [Wave.weight, Wave.deliver]
    omega

/-- **The number of deliveries** is bounded: one start for each node, one report and one release
for each node but the root. -/
theorem Sound.weight_le (h : T.Sound w) : w.weight ≤ 3 * T.nodes.card - 2 := by
  have hjoined : w.joined.card ≤ T.nodes.card := Finset.card_le_card h.joined
  have hothers : (T.nodes.erase T.root).card = T.nodes.card - 1 :=
    Finset.card_erase_of_mem T.root_mem
  have hheard : w.heard.card ≤ T.nodes.card - 1 := by
    rw [← hothers]
    exact Finset.card_le_card fun n hn => Finset.mem_erase.2 ⟨(h.heard n hn).2.1, (h.heard n hn).1⟩
  have hfreed : w.freed.card ≤ T.nodes.card - 1 := by
    rw [← hothers]
    exact Finset.card_le_card fun n hn => Finset.mem_erase.2 ⟨(h.freed n hn).2.1, (h.freed n hn).1⟩
  rw [Wave.weight]
  omega

end RootedTree

end CodesSim
