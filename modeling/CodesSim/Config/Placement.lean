import CodesSim.Config.Changes
import CodesSim.Config.NoSilentDrop

/-!
# The placement of jobs

The jobs of a configuration that is compiled get nodes of their own (`Placement`): contiguous jobs
are packed from 0 on in their order, and the others have the nodes that they list, in any order
between them.  The compiler books every node once, and what it cannot know of a job that lists its
nodes it has read: that none is negative (`jobs_listed`).
-/

namespace CodesSim.Config

open LastWins Outcome

/-- The ranks of the contiguous jobs. -/
def contiguousRanks (placed : List (Job × List ℤ)) : ℤ :=
  ((placed.filter fun p => p.1.contiguous).map fun p => p.1.ranks).sum

/-- Jobs on the first `totalSlots` nodes. -/
structure Placement (totalSlots : ℤ) (placed : List (Job × List ℤ)) : Prop where
  /-- Each job has as many nodes as ranks, and they are different nodes. -/
  length : ∀ p ∈ placed, (p.2.length : ℤ) = p.1.ranks
  nodup : ∀ p ∈ placed, p.2.Nodup
  bounds : ∀ p ∈ placed, ∀ n ∈ p.2, 0 ≤ n ∧ n < totalSlots
  /-- No two jobs share a node. -/
  disjoint : placed.Pairwise fun a b => a.2.Disjoint b.2
  listed : ∀ p ∈ placed, p.1.contiguous = false → p.2 = p.1.nodes
  /-- The nodes of the contiguous jobs, one job after the other, are the first ones. -/
  packed : (placed.filter fun p => p.1.contiguous).flatMap Prod.snd =
    (List.range (contiguousRanks placed).toNat).map fun r : ℕ => (r : ℤ)
  ranks : (placed.map fun p => p.1.ranks).sum ≤ totalSlots

variable {lib : Library}

/-! ### The nodes that a job lists -/

theorem parseDocument_eq_ok {text : CStr} {root : Yaml} (h : parseDocument lib text = .ok root) :
    lib.parse text = .ok root := by
  rw [parseDocument] at h
  obtain ⟨parsed, hparse, h⟩ := bind_eq_ok h
  obtain ⟨-, h⟩ := guard_eq_ok h
  cases h
  exact hparse

theorem allChanges_read {mainDoc : CStr} {baseDocs : List CStr} {chs : List Changes}
    (h : allChanges lib mainDoc baseDocs = .ok chs) : ∀ ch ∈ chs, ∃ doc ∈ baseDocs ++ [mainDoc],
      ∃ root, lib.parse doc = .ok root ∧ readChanges lib root = .ok ch := by
  rw [allChanges] at h
  obtain ⟨bases, hbases, h⟩ := bind_eq_ok h
  obtain ⟨main, hmain, h⟩ := bind_eq_ok h
  obtain rfl := Except.ok.inj h
  intro ch hch
  rcases List.mem_append.1 hch with hbase | hlast
  · obtain ⟨doc, hmem, hdoc⟩ := mem_of_mapM hbases ch hbase
    rw [baseChanges] at hdoc
    obtain ⟨root, hroot, hdoc⟩ := bind_eq_ok hdoc
    obtain ⟨-, -, hdoc⟩ := bind_eq_ok hdoc
    obtain ⟨-, -, hdoc⟩ := bind_eq_ok hdoc
    exact ⟨doc, List.mem_append_left _ hmem, root, parseDocument_eq_ok hroot, hdoc⟩
  · obtain rfl := List.mem_singleton.1 hlast
    rw [mainChanges] at hmain
    obtain ⟨root, hroot, hmain⟩ := bind_eq_ok hmain
    obtain ⟨-, -, hmain⟩ := bind_eq_ok hmain
    obtain ⟨-, -, hmain⟩ := bind_eq_ok hmain
    exact ⟨mainDoc, List.mem_append_right _ List.mem_cons_self, root,
      parseDocument_eq_ok hroot, hmain⟩

variable {jobs : List Job}

theorem jobs_read {mainDoc : CStr} {baseDocs : List CStr} {cfg : FriendlyConfig}
    (hmerge : mergeDocuments lib mainDoc baseDocs = .ok cfg) (hjobs : cfg.jobs = some jobs) :
    ∃ doc ∈ baseDocs ++ [mainDoc], ∃ root items, lib.parse doc = .ok root ∧
      root.find "jobs" = some (.seq items) ∧
      (Yaml.seq items).children.foldlM (addJob lib) [] = .ok jobs := by
  rw [mergeDocuments_eq] at hmerge
  obtain ⟨chs, hchs, rfl⟩ := map_eq_ok hmerge
  rw [merged_jobs] at hjobs
  obtain ⟨ch, hch, hread⟩ := List.mem_filterMap.1 (List.mem_of_getLast? hjobs)
  obtain ⟨doc, hdoc, root, hparsed, hroot⟩ := allChanges_read hchs ch hch
  rw [readChanges] at hroot
  obtain ⟨components, -, hroot⟩ := bind_eq_ok hroot
  obtain ⟨topology, -, hroot⟩ := bind_eq_ok hroot
  obtain ⟨sections, -, hroot⟩ := bind_eq_ok hroot
  obtain ⟨simulation, -, hroot⟩ := bind_eq_ok hroot
  obtain ⟨read, hparse, hroot⟩ := bind_eq_ok hroot
  cases hroot
  obtain rfl : read = some jobs := hread
  rw [parseJobs] at hparse
  cases hfind : root.find "jobs" with
  | none =>
    rw [hfind] at hparse
    cases hparse
  | some node =>
    simp only [hfind] at hparse
    obtain ⟨hseq, hparse⟩ := guard_eq_ok hparse
    obtain ⟨js, hjs, hparse⟩ := bind_eq_ok hparse
    cases hparse
    cases node with
    | scalar _ => exact absurd rfl hseq
    | map _ => exact absurd rfl hseq
    | seq items => exact ⟨doc, hdoc, root, items, hparsed, hfind, hjs⟩

theorem placementNode_nonneg {n : Option CStr × Yaml} {idx : ℤ}
    (h : placementNode lib n = .ok idx) : 0 ≤ idx := by
  rw [placementNode] at h
  obtain ⟨text, -, h⟩ := bind_eq_ok h
  obtain ⟨i, -, h⟩ := bind_eq_ok h
  obtain ⟨hneg, h⟩ := guard_eq_ok h
  cases h
  exact Int.not_lt.1 hneg

theorem parsePlacement_nonneg {f : Yaml} {p : Bool × List ℤ} (h : parsePlacement lib f = .ok p) :
    ∀ n ∈ p.2, 0 ≤ n := by
  rw [parsePlacement] at h
  obtain ⟨-, h⟩ := guard_eq_ok h
  split at h
  · obtain ⟨-, -, h⟩ := bind_eq_ok h
    obtain ⟨policy, -, h⟩ := bind_eq_ok h
    obtain ⟨-, h⟩ := guard_eq_ok h
    cases h
    exact fun _ hn => absurd hn List.not_mem_nil
  · obtain ⟨-, -, h⟩ := bind_eq_ok h
    obtain ⟨-, h⟩ := guard_eq_ok h
    obtain ⟨nodes, hnodes, h⟩ := bind_eq_ok h
    cases h
    intro n hn
    obtain ⟨node, -, hnode⟩ := mem_of_mapM hnodes n hn
    exact placementNode_nonneg hnode
  · cases h

/-- No node of a job that was read so far is negative. -/
def JobFields.Listed (j : JobFields) : Prop := ∀ p, j.placement = some p → ∀ n ∈ p.2, 0 ≤ n

theorem jobField_listed {j j' : JobFields} {f : Option CStr × Yaml} (hj : j.Listed)
    (h : jobField lib j f = .ok j') : j'.Listed := by
  rw [jobField] at h
  obtain ⟨k, -, h⟩ := bind_eq_ok h
  dsimp only at h
  split_ifs at h
  · obtain ⟨id, -, h⟩ := bind_eq_ok h
    cases h
    exact hj
  · obtain ⟨wl, -, h⟩ := bind_eq_ok h
    cases h
    exact hj
  · obtain ⟨text, -, h⟩ := bind_eq_ok h
    obtain ⟨ranks, -, h⟩ := bind_eq_ok h
    cases h
    exact hj
  · obtain ⟨p, hp, h⟩ := bind_eq_ok h
    cases h
    rintro p' hp' n hn
    obtain rfl := Option.some.inj hp'
    rcases List.mem_append.1 hn with hold | hnew
    · cases hplacement : j.placement with
      | none =>
        rw [hplacement] at hold
        exact absurd hold List.not_mem_nil
      | some old =>
        rw [hplacement] at hold
        exact hj old hplacement n hold
    · exact parsePlacement_nonneg hp n hnew
  · cases h
  · cases h

/-- **No job lists a negative node.** -/
theorem jobs_listed {items : List (Option CStr × Yaml)}
    (h : items.foldlM (addJob lib) [] = .ok jobs) : ∀ j ∈ jobs, ∀ n ∈ j.nodes, 0 ≤ n := by
  refine foldlM_invariant (fun js : List Job => ∀ j ∈ js, ∀ n ∈ j.nodes, 0 ≤ n) ?_
    (fun _ hj => absurd hj List.not_mem_nil) h
  intro js item js' hjs h
  rw [addJob] at h
  obtain ⟨-, h⟩ := guard_eq_ok h
  obtain ⟨fields, hfields, h⟩ := bind_eq_ok h
  obtain ⟨j, hj, h⟩ := bind_eq_ok h
  cases h
  have hempty : JobFields.Listed ⟨[], none, none, none⟩ := by
    intro p hp
    cases hp
  have hlisted : fields.Listed := foldlM_invariant JobFields.Listed
    (fun _ _ _ hold hstep => jobField_listed hold hstep) hempty hfields
  intro k hk
  rcases List.mem_append.1 hk with hold | hnew
  · exact hjs k hold
  · obtain rfl := List.mem_singleton.1 hnew
    rw [finishJob] at hj
    obtain ⟨-, hj⟩ := guard_eq_ok hj
    obtain ⟨-, hj⟩ := guard_eq_ok hj
    split at hj
    · cases hj
    · split at hj
      · cases hj
      · obtain ⟨-, hj⟩ := guard_eq_ok hj
        split at hj
        · cases hj
        · rename_i hplacement
          obtain ⟨-, hj⟩ := guard_eq_ok hj
          cases hj
          exact hlisted _ hplacement

/-! ### Booking -/

variable {totalSlots : ℤ}

theorem bookNodes_valid {id : CStr} {nodes booked booked' : List ℤ}
    (h : bookNodes id totalSlots nodes booked = .ok booked') :
    nodes.Nodup ∧ ∀ n ∈ nodes, n < totalSlots := by
  induction nodes generalizing booked with
  | nil => exact ⟨List.nodup_nil, fun _ hn => absurd hn List.not_mem_nil⟩
  | cons idx nodes ih =>
    rw [bookNodes] at h
    obtain ⟨hlt, h⟩ := guard_eq_ok h
    obtain ⟨-, h⟩ := guard_eq_ok h
    obtain ⟨hnodup, hbound⟩ := ih h
    have hfree := (bookNodes_booked h).1
    refine ⟨List.nodup_cons.2 ⟨fun hmem => hfree idx hmem List.mem_cons_self, hnodup⟩, ?_⟩
    exact List.forall_mem_cons.2 ⟨Int.not_le.1 hlt, hbound⟩

theorem placeJobs_valid {cursor : ℤ} {booked : List ℤ}
    {placed : List (Job × List ℤ)} (h : placeJobs totalSlots jobs cursor booked = .ok placed) :
    ∀ p ∈ placed, p.2.Nodup ∧ ∀ n ∈ p.2, n < totalSlots := by
  induction jobs generalizing cursor booked placed with
  | nil =>
    cases h
    exact fun _ hp => absurd hp List.not_mem_nil
  | cons j jobs ih =>
    rw [placeJobs] at h
    obtain ⟨booked', hbook, h⟩ := bind_eq_ok h
    obtain ⟨rest, hrest, h⟩ := bind_eq_ok h
    obtain rfl := Except.ok.inj h
    exact List.forall_mem_cons.2 ⟨bookNodes_valid hbook, ih hrest⟩

theorem Job.Wf.length_jobNodes {j : Job} (hj : j.Wf) (cursor : ℤ) :
    ((jobNodes cursor j).length : ℤ) = j.ranks := by
  have hpos := hj.ranks_pos
  rw [jobNodes]
  split_ifs with hcontiguous
  · rw [List.length_map, List.length_range, Int.toNat_of_nonneg (by omega)]
  · exact hj.nodes_length (by simpa using hcontiguous)

theorem withNodes_nonneg {cursor : ℤ} (hcursor : 0 ≤ cursor)
    (hwf : ∀ j ∈ jobs, j.Wf) (hlisted : ∀ j ∈ jobs, ∀ n ∈ j.nodes, 0 ≤ n) :
    ∀ p ∈ withNodes cursor jobs, ∀ n ∈ p.2, 0 ≤ n := by
  induction jobs generalizing cursor with
  | nil => exact fun _ hp => absurd hp List.not_mem_nil
  | cons j jobs ih =>
    rw [List.forall_mem_cons] at hwf hlisted
    have hpos := hwf.1.ranks_pos
    refine List.forall_mem_cons.2 ⟨fun n hn => ?_, ih (by split_ifs <;> omega) hwf.2 hlisted.2⟩
    rw [jobNodes] at hn
    split_ifs at hn
    · obtain ⟨r, -, rfl⟩ := List.mem_map.1 hn
      omega
    · exact hlisted.1 n hn

/-- **Contiguous jobs are packed**, whatever stands between them. -/
theorem withNodes_packed (hwf : ∀ j ∈ jobs, j.Wf) (cursor : ℤ) :
    0 ≤ contiguousRanks (withNodes cursor jobs) ∧
      ((withNodes cursor jobs).filter fun p => p.1.contiguous).flatMap Prod.snd =
        (List.range (contiguousRanks (withNodes cursor jobs)).toNat).map
          fun r : ℕ => cursor + r := by
  induction jobs generalizing cursor with
  | nil => exact ⟨Int.le_refl 0, rfl⟩
  | cons j jobs ih =>
    rw [List.forall_mem_cons] at hwf
    have hpos := hwf.1.ranks_pos
    rw [withNodes, contiguousRanks]
    by_cases hcontiguous : j.contiguous = true
    · obtain ⟨hsum, hnodes⟩ := ih hwf.2 (cursor + j.ranks)
      rw [List.filter_cons_of_pos (by exact hcontiguous), List.map_cons, List.sum_cons,
        List.flatMap_cons, if_pos hcontiguous, ← contiguousRanks, hnodes, jobNodes,
        if_pos hcontiguous]
      dsimp only
      rw [Int.toNat_add (by omega) hsum, List.range_add, List.map_append, List.map_map]
      refine ⟨by omega, congrArg _ (List.map_congr_left fun r _ => ?_)⟩
      rw [Function.comp_apply, Int.natCast_add, Int.toNat_of_nonneg (by omega), Int.add_assoc]
    · rw [List.filter_cons_of_neg (by exact hcontiguous), if_neg hcontiguous, ← contiguousRanks]
      exact ih hwf.2 cursor

/-- **The jobs of a configuration are placed.** -/
theorem placeJobs_placement {placed : List (Job × List ℤ)}
    (hwf : ∀ j ∈ jobs, j.Wf) (hlisted : ∀ j ∈ jobs, ∀ n ∈ j.nodes, 0 ≤ n)
    (hplaced : placeJobs totalSlots jobs 0 [] = .ok placed)
    (hranks : (jobs.map Job.ranks).sum ≤ totalSlots) : Placement totalSlots placed := by
  have hvalid := placeJobs_valid hplaced
  obtain ⟨rfl, hdisjoint, -⟩ := placeJobs_placed hplaced
  refine
    { length := fun p hp => ?_
      nodup := fun p hp => (hvalid p hp).1
      bounds := fun p hp n hn =>
        ⟨withNodes_nonneg (Int.le_refl 0) hwf hlisted p hp n hn, (hvalid p hp).2 n hn⟩
      disjoint := hdisjoint.imp fun hab n ha hb => hab n ha hb
      listed := fun p hp hcontiguous => ?_
      packed := ?_
      ranks := ?_ }
  · obtain ⟨hjob, cursor, hnodes⟩ := mem_withNodes hp
    rw [hnodes]
    exact (hwf p.1 hjob).length_jobNodes cursor
  · obtain ⟨-, cursor, hnodes⟩ := mem_withNodes hp
    rw [hnodes, jobNodes, if_neg (by rw [hcontiguous]; exact Bool.false_ne_true)]
  · rw [(withNodes_packed hwf 0).2]
    exact List.map_congr_left fun r _ => Int.zero_add _
  · rw [show (fun p : Job × List ℤ => p.1.ranks) = Job.ranks ∘ Prod.fst from rfl, ← List.map_map,
      withNodes_map]
    exact hranks

end CodesSim.Config
