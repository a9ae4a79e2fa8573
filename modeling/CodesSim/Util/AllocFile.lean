import CodesSim.Util.JobmapList

/-!
# Bad lines of an allocation file

Whether `jobmap_list_configure` fails depends on the last line alone, for the status of each line
replaces the one before.  A line with a bad token is left out, and the jobs behind it are numbered
as if it were empty; it is noticed only if it is the last one (`malformed_reported_iff`).  A file
that ends with a newline has an empty last line.

* `sscanf` reads a number at the beginning of a token and does not look at the rest.
* When the map is given up, the lists of all slots are freed, of which those behind the last line
  are not written if there have been more than eight.
-/

namespace CodesSim.JobmapList

open Config Outcome

/-- A line has a token that is no integer. -/
def Malformed (file : CStr) : Prop := ∃ line ∈ fileLines file, ¬IntegerLine line

/-- **What is promised**: a bad file is refused, and when a file is accepted every line that is not
empty is a job. -/
structure Reported (file : CStr) : Prop where
  refused : Malformed file → jobmapListConfigure (some file) = .ok none
  accepted : ∀ lst, jobmapListConfigure (some file) = .ok (some lst) → ¬Malformed file ∧
    lst.globalIds.length = ((fileLines file).filter fun line => !(words line).isEmpty).length

/-- There is no slot behind the last line that was not written. -/
def NoFreeSlot (jobs : ℕ) : Prop := jobs < 8 ∨ ∃ k, jobs + 1 = 8 * 2 ^ k

/-- The last line has a token that `sscanf` does not read, and nothing before it goes wrong. -/
structure BadLast (file : CStr) : Prop where
  last : ¬Readable (strtok (lastLine file))
  ints : AllInt file
  fit : IdsFit (readJobs file)
  slots : NoFreeSlot (readJobs file).length

section

variable {file line : CStr} {lists : Lists}

theorem integers_of_not_malformed (h : ¬Malformed file) : ∀ line ∈ fileLines file,
    IntegerLine line :=
  fun line hline => by_contra fun hbad => h ⟨line, hline, hbad⟩

theorem listed_isEmpty (h : IntegerLine line) : (listed line).isEmpty = (words line).isEmpty := by
  unfold listed
  unfold IntegerLine at h
  cases hwords : words line with
  | nil => rfl
  | cons tok toks =>
    rw [hwords] at h
    obtain ⟨n, hn⟩ := Option.ne_none_iff_exists'.1 (h tok List.mem_cons_self)
    simp [hn]

theorem length_jobLines (h : ∀ line ∈ fileLines file, IntegerLine line) : (jobLines file).length =
    ((fileLines file).filter fun line => !(words line).isEmpty).length := by
  have hfilter : (fileLines file).filter (fun line => !(listed line).isEmpty) =
      (fileLines file).filter fun line => !(words line).isEmpty :=
    List.filter_congr fun line hline => by rw [listed_isEmpty (h line hline)]
  rw [jobLines, List.filter_map, List.length_map, ← hfilter]
  rfl

theorem reported_of_integers (h : ¬Malformed file) : Reported file where
  refused hbad := absurd hbad h
  accepted lst hok := by
    have hint := integers_of_not_malformed h
    obtain ⟨-, -, hbuild⟩ := configure_spec hok
    rw [(buildTable_spec hbuild).1, readJobs_of_integers hint, length_jobLines hint]
    exact ⟨h, rfl⟩

theorem noFreeSlot_iff (hcap : lists.CapOk) (hroom : lists.globalIds.length < lists.jobCap) :
    ¬max 8 (lists.globalIds.length + 1) < lists.jobCap ↔ NoFreeSlot lists.globalIds.length := by
  obtain ⟨k, hk, hsmall⟩ := hcap
  constructor
  · intro hle
    rcases Nat.eq_zero_or_pos k with rfl | hpos
    · exact .inl (by omega)
    · have htwo : 2 ^ 1 ≤ 2 ^ k := Nat.pow_le_pow_right (by decide) hpos
      exact .inr ⟨k, by omega⟩
  · rintro (hlt | ⟨j, hj⟩)
    · rcases Nat.eq_zero_or_pos k with rfl | hpos
      · omega
      · have htwo : 2 ^ 1 ≤ 2 ^ k := Nat.pow_le_pow_right (by decide) hpos
        omega
    · -- the capacity is between the number of slots that are needed and twice as many
      rcases hsmall with rfl | hle
      · omega
      · have hjk : 2 ^ j ≤ 2 ^ k := by omega
        have hkj : 2 ^ k < 2 ^ (j + 1) := by
          rw [Nat.pow_succ]
          omega
        have hjk := (Nat.pow_le_pow_iff_right (by decide : 1 < 2)).1 hjk
        have hkj := (Nat.pow_lt_pow_iff_right (by decide : 1 < 2)).1 hkj
        obtain rfl : j = k := by omega
        omega

/-- **When -1 is returned.** -/
theorem configure_none_iff : jobmapListConfigure (some file) = .ok none ↔ BadLast file := by
  by_cases hint : AllInt file
  case neg =>
    rw [configure_overflow hint]
    exact ⟨nofun, fun h => absurd h.ints hint⟩
  obtain ⟨lists, hjobs, hcap, hroom, heq⟩ := configure_eq hint
  rw [heq]
  constructor
  · intro h
    obtain ⟨lst, hbuild, h⟩ := bind_eq_ok h
    split_ifs at h with hread hfree
    · cases h
    · have hslots := (noFreeSlot_iff hcap (hroom hread)).1 hfree
      exact ⟨hread, hint, (buildTable_spec hbuild).2.1, hjobs ▸ hslots⟩
  · intro h
    obtain ⟨lst, hbuild⟩ := buildTable_ok h.fit
    have hfree := (noFreeSlot_iff hcap (hroom h.last)).2 (hjobs ▸ h.slots)
    rw [hbuild]
    exact (if_neg h.last).trans (if_neg hfree)

end

/-- **Bad lines.**  What is promised is kept exactly for files without bad tokens, and for those in
which the last line has a token that `sscanf` does not read. -/
theorem malformed_reported_iff (file : CStr) : Reported file ↔ ¬Malformed file ∨ BadLast file := by
  constructor
  · intro h
    by_cases hbad : Malformed file
    · exact .inr (configure_none_iff.1 (h.refused hbad))
    · exact .inl hbad
  · rintro (hgood | hlast)
    · exact reported_of_integers hgood
    · have hnone := configure_none_iff.2 hlast
      refine ⟨fun _ => hnone, fun lst hok => ?_⟩
      rw [hnone] at hok
      cases hok

/-- A bad line between two jobs. -/
def badBetween : CStr := "0 1\nx\n2 3\n".toList

/-- The second job becomes the one behind the bad line. -/
theorem badBetween_accepted : Malformed badBetween ∧
    (∃ lst, jobmapListConfigure (some badBetween) = .ok (some lst) ∧
      lst.globalIds = [[0, 1], [2, 3]]) ∧
    ¬Reported badBetween := by
  have hbad : Malformed badBetween := ⟨"x".toList, by decide +kernel, by decide +kernel⟩
  have hok : jobmapListConfigure (some badBetween) =
      .ok (some ⟨[[0, 1], [2, 3]], 3, [⟨0, 0⟩, ⟨0, 1⟩, ⟨1, 0⟩, ⟨1, 1⟩]⟩) := by decide +kernel
  refine ⟨hbad, ⟨_, hok, rfl⟩, fun h => ?_⟩
  rw [h.refused hbad] at hok
  cases hok

end CodesSim.JobmapList
