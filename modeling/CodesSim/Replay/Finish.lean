import CodesSim.Lib.Network
import Mathlib.Algebra.Order.BigOperators.Group.Finset

/-!
# The end of the workloads

Ranks of synthetic jobs make background traffic until all other jobs are over
(`model-net-mpi-replay.c`).  A rank that comes to the end of its trace tells rank 0 of its job
(`CLI_NBR_FINISH`), which tells rank 0 of the root job when it has heard all ranks of its own
(`CLI_OTHER_FINISH`); and when this one has heard all jobs that are not synthetic it tells every
rank of every synthetic job (`CLI_BCKGND_FIN`).

* The root job is job 0, whatever kind of job it is.  `notify_root_workload` looks for the lowest
  job that is not synthetic and does not use it.  So all goes well when job 0 is not synthetic, and
  otherwise an assertion fails (`notified_iff`).
* An LP is named by its number among the LPs that replay traces.  The notice to the LPs of the
  network that the simulation is over is left out.
* A run starts with the end of each trace still to come.
-/

namespace CodesSim.Replay

open Function

namespace Finish

/-- A rank of a job (`codes_jobmap_id`), never negative for a place of such an allocation. -/
structure JobmapId where
  job : ℕ
  rank : ℕ

/-- The placement of the jobs (`codes_jobmap_ctx`, of an allocation that names every place once). -/
structure Jobmap where
  numJobs : ℕ
  numRanks : ℕ → ℕ
  toGlobalId : JobmapId → ℕ
  toLocalId : ℕ → JobmapId
  numRanks_pos : ∀ j < numJobs, 0 < numRanks j
  toLocal_toGlobal : ∀ j < numJobs, ∀ k < numRanks j, toLocalId (toGlobalId ⟨j, k⟩) = ⟨j, k⟩

/-- The jobs of a simulation. -/
structure Config where
  jobmap : Jobmap
  isJobSynthetic : ℕ → Bool
  maxGenData : ℕ

/-- The fields of `nw_state` that the notices use. -/
structure NwState where
  appId : ℕ
  localRank : ℕ
  isFinished : Bool
  numOwnJobRanksCompleted : ℕ
  knownCompletedJobs : ℕ → ℕ

/-- The events. -/
inductive Event where
  /-- `MPI_OP_GET_NEXT` where the trace ends (`CODES_WK_END`). -/
  | traceEnd
  /-- `CLI_NBR_FINISH`. -/
  | nbrFinish
  /-- `CLI_OTHER_FINISH`. -/
  | otherFinish (appId : ℕ)
  /-- `CLI_BCKGND_FIN`. -/
  | bckgndFin
  deriving DecidableEq

/-- Events with the LPs they go to. -/
abbrev Outs := List (ℕ × Event)
variable {jobs : List ℕ} {j : ℕ}

variable {α : Type*}


namespace Config

variable (cfg : Config)

def numJobs : ℕ := cfg.jobmap.numJobs

/-- The place of a rank of a job. -/
def place (job rank : ℕ) : ℕ := cfg.jobmap.toGlobalId ⟨job, rank⟩

/-- `num_nonsyn_jobs`. -/
def numNonsynJobs : ℕ := (List.range cfg.numJobs).countP fun j => !cfg.isJobSynthetic j

/-- The ranks of the jobs of a list. -/
def places (jobs : List ℕ) : List ℕ :=
  jobs.flatMap fun j => (List.range (cfg.jobmap.numRanks j)).map fun k => cfg.place j k

/-- `notify_root_rank`. -/
def notifyRootRank (s : NwState) : Outs := [(cfg.place s.appId 0, .nbrFinish)]

/-- `notify_root_workload`. -/
def notifyRootWorkload (s : NwState) : Outs := [(cfg.place 0 0, .otherFinish s.appId)]

/-- The loop over the jobs of `notify_background_traffic`. -/
def notifyJobs (jid : JobmapId) : List ℕ → Option Outs
  | [] => some []
  | otherId :: others =>
    if cfg.isJobSynthetic otherId = false then notifyJobs jid others
    else if otherId = jid.job then none -- assert(other_id != jid.job)
    else (notifyJobs jid others).map fun outs =>
      (cfg.places [otherId]).map (fun g => (g, .bckgndFin)) ++ outs

/-- `notify_background_traffic`, of the LP with a number. -/
def notifyBackgroundTraffic (nwId : ℕ) : Option Outs :=
  cfg.notifyJobs (cfg.jobmap.toLocalId nwId) (List.range cfg.numJobs)

/-- The end of the trace in `get_next_mpi_operation`. -/
def handleTraceEnd (s : NwState) : NwState × Outs :=
  ({ s with isFinished := true }, cfg.notifyRootRank s)

/-- `handle_neighbor_finish`. -/
def handleNeighborFinish (s : NwState) : NwState × Outs :=
  let s := { s with numOwnJobRanksCompleted := s.numOwnJobRanksCompleted + 1 }
  (s, if s.numOwnJobRanksCompleted = cfg.jobmap.numRanks s.appId then cfg.notifyRootWorkload
    s else [])

/-- The jobs that an LP knows to be over. -/
def totalCompleted (s : NwState) : ℕ :=
  ((List.range cfg.numJobs).map s.knownCompletedJobs).sum

/-- `handle_other_finish`. -/
def handleOtherFinish (nwId : ℕ) (s : NwState) (appId : ℕ) : Option (NwState × Outs) :=
  if s.appId = 0 ∧ s.localRank = 0 then
    let s := { s with knownCompletedJobs := update s.knownCompletedJobs appId 1 }
    let total := cfg.totalCompleted s
    if total = cfg.numNonsynJobs ∧ total < cfg.numJobs ∧ cfg.maxGenData ≤ 0 then
      (cfg.notifyBackgroundTraffic nwId).map fun outs => (s, outs)
    else some (s, [])
  else none

/-- An LP, with the number of `CLI_BCKGND_FIN` that were handed to it. -/
structure Node where
  s : NwState
  fins : ℕ

/-- The events of the replay (`nw_test_event_handler`) that the end of the workloads is about. -/
def handle (nwId : ℕ) (node : Node) : Event → Option (Node × Outs)
  | .traceEnd =>
    let r := cfg.handleTraceEnd node.s
    some ({ node with s := r.1 }, r.2)
  | .nbrFinish =>
    let r := cfg.handleNeighborFinish node.s
    some ({ node with s := r.1 }, r.2)
  | .otherFinish appId =>
    (cfg.handleOtherFinish nwId node.s appId).map fun r => ({ node with s := r.1 }, r.2)
  | .bckgndFin => some (⟨{ node.s with isFinished := true }, node.fins + 1⟩, [])

/-- The LPs. -/
def system : LpSystem (fun _ : ℕ => Node) Event Unit := ⟨fun _ => cfg.handle⟩

/-- A job of the simulation that is not synthetic. -/
def Nonsyn (j : ℕ) : Prop := j < cfg.numJobs ∧ cfg.isJobSynthetic j = false

/-- A synthetic job of the simulation. -/
def Syn (j : ℕ) : Prop := j < cfg.numJobs ∧ cfg.isJobSynthetic j = true

def nonsynJobs : List ℕ := (List.range cfg.numJobs).filter fun j => !cfg.isJobSynthetic j

def synJobs : List ℕ := (List.range cfg.numJobs).filter fun j => cfg.isJobSynthetic j

/-- At the beginning (`nw_test_init`). -/
def init : Net (fun _ : ℕ => Node) Event where
  nodes g := ⟨⟨(cfg.jobmap.toLocalId g).job, (cfg.jobmap.toLocalId g).rank, false, 0, fun _ => 0⟩,
    0⟩
  inFlight := (cfg.places cfg.nonsynJobs).map fun g => (g, .traceEnd)

variable {cfg}

/-! ### Places -/

theorem place_inj {k j' k' : ℕ} (hj : j < cfg.numJobs) (hk : k < cfg.jobmap.numRanks j)
    (hj' : j' < cfg.numJobs) (hk' : k' < cfg.jobmap.numRanks j')
    (h : cfg.place j k = cfg.place j' k') : j = j' ∧ k = k' := by
  have hlocal := congrArg cfg.jobmap.toLocalId h
  unfold place at hlocal
  rw [cfg.jobmap.toLocal_toGlobal j hj k hk, cfg.jobmap.toLocal_toGlobal j' hj' k' hk'] at hlocal
  exact JobmapId.mk.inj hlocal

theorem mem_places {g : ℕ} :
    g ∈ cfg.places jobs ↔ ∃ j ∈ jobs, ∃ k < cfg.jobmap.numRanks j, g = cfg.place j k := by
  simp only [places, List.mem_flatMap, List.mem_map, List.mem_range, eq_comm]

theorem nodup_places (hjobs : ∀ j ∈ jobs, j < cfg.numJobs) (h : jobs.Nodup) :
    (cfg.places jobs).Nodup := by
  refine List.nodup_flatMap.2 ⟨fun j hj => ?_, ?_⟩
  · refine List.Nodup.map_on (fun k hk k' hk' heq => ?_) List.nodup_range
    exact (place_inj (hjobs j hj) (List.mem_range.1 hk) (hjobs j hj) (List.mem_range.1 hk') heq).2
  · refine h.pairwise_of_forall_ne fun j hj j' hj' hne => ?_
    intro g hg hg'
    obtain ⟨k, hk, rfl⟩ := List.mem_map.1 hg
    obtain ⟨k', hk', heq⟩ := List.mem_map.1 hg'
    exact hne (place_inj (hjobs j' hj') (List.mem_range.1 hk') (hjobs j hj) (List.mem_range.1 hk)
      heq).1.symm

/-! ### Counting events -/

/-- Events of a kind for an LP. -/
def eventsAt (g : ℕ) (ev : Event) (d : ℕ) (e : Event) : ℕ := if d = g ∧ e = ev then 1 else 0

open LpSystem in
theorem flightSum_map (g : ℕ) (ev : Event) (l : List ℕ) :
    flightSum (eventsAt g ev) (l.map fun d => (d, ev)) = l.count g := by
  induction l with
  | nil => rfl
  | cons d l ih =>
    rw [List.map_cons, flightSum_cons, ih, List.count_cons, add_comm]
    simp [eventsAt]

open LpSystem in
theorem flightSum_map_of_ne (g : ℕ) {ev ev' : Event} (h : ev' ≠ ev) (l : List ℕ) :
    flightSum (eventsAt g ev) (l.map fun d => (d, ev')) = 0 := by
  induction l with
  | nil => rfl
  | cons d l ih =>
    rw [List.map_cons, flightSum_cons, ih]
    simp [eventsAt, h]

theorem sum_map_eq_countP_iff {p : α → Bool} {f : α → ℕ} {l : List α}
    (h : ∀ a ∈ l, f a ≤ if p a then 1 else 0) :
    (l.map f).sum ≤ l.countP p ∧ ((l.map f).sum = l.countP p ↔ ∀ a ∈ l, p a = true → f a = 1) := by
  induction l with
  | nil => simp
  | cons a l ih =>
    obtain ⟨hle, hiff⟩ := ih fun b hb => h b (List.mem_cons_of_mem _ hb)
    have ha := h a List.mem_cons_self
    rw [List.map_cons, List.sum_cons, List.countP_cons, List.forall_mem_cons, ← hiff]
    cases hp : p a with
    | true =>
      simp only [hp, if_true, forall_const] at ha ⊢
      omega
    | false =>
      simp only [hp, Bool.false_eq_true, if_false, false_implies, true_and] at ha ⊢
      omega

/-! ### The invariant -/

/-- The LPs of a job. -/
def ranksOf (cfg : Config) (j : ℕ) : Finset ℕ :=
  (Finset.range (cfg.jobmap.numRanks j)).image (cfg.place j)

def finished (_ : ℕ) (node : Node) : ℕ := if node.s.isFinished then 1 else 0

/-- The root knows that all jobs that are not synthetic are over. -/
def AllKnown (cfg : Config) (net : Net (fun _ : ℕ => Node) Event) : Prop :=
  ∀ j, cfg.Nonsyn j → (net.nodes (cfg.place 0 0)).s.knownCompletedJobs j = 1

/-- The `CLI_BCKGND_FIN` that an LP was sent. -/
def finsSent (net : Net (fun _ : ℕ => Node) Event) (g : ℕ) : ℕ :=
  (net.nodes g).fins + LpSystem.flightSum (eventsAt g .bckgndFin) net.inFlight

/-- Where an event can go. -/
def EventOk (cfg : Config) (d : ℕ) : Event → Prop
  | .traceEnd => ∃ j, cfg.Nonsyn j ∧ ∃ k < cfg.jobmap.numRanks j, d = cfg.place j k
  | .nbrFinish => ∃ j, cfg.Nonsyn j ∧ d = cfg.place j 0
  | .otherFinish a => cfg.Nonsyn a ∧ d = cfg.place 0 0
  | .bckgndFin => ∃ j, cfg.Syn j ∧ ∃ k < cfg.jobmap.numRanks j, d = cfg.place j k

open LpSystem in
/-- **The invariant**, when job 0 is not synthetic: what has been heard of and what is on its way
make up what has happened. -/
structure Inv (cfg : Config) (net : Net (fun _ : ℕ => Node) Event) : Prop where
  ids : ∀ g, (net.nodes g).s.appId = (cfg.jobmap.toLocalId g).job ∧
    (net.nodes g).s.localRank = (cfg.jobmap.toLocalId g).rank
  events : ∀ x ∈ net.inFlight, cfg.EventOk x.1 x.2
  ends : ∀ j, cfg.Nonsyn j → ∀ g ∈ cfg.ranksOf j,
    finished g (net.nodes g) + flightSum (eventsAt g .traceEnd) net.inFlight = 1
  gather : ∀ j, cfg.Nonsyn j → (net.nodes (cfg.place j 0)).s.numOwnJobRanksCompleted +
    flightSum (eventsAt (cfg.place j 0) .nbrFinish) net.inFlight =
      nodeSum (cfg.ranksOf j) finished net
  report : ∀ j, cfg.Nonsyn j → (net.nodes (cfg.place 0 0)).s.knownCompletedJobs j +
    flightSum (eventsAt (cfg.place 0 0) (.otherFinish j)) net.inFlight =
      if (net.nodes (cfg.place j 0)).s.numOwnJobRanksCompleted = cfg.jobmap.numRanks j then 1 else 0
  foreign : ∀ j, ¬cfg.Nonsyn j → (net.nodes (cfg.place 0 0)).s.knownCompletedJobs j = 0
  sentNone : ¬cfg.AllKnown net → ∀ g, finsSent net g = 0
  sentAll : cfg.AllKnown net → ∀ j, cfg.Syn j → ∀ k < cfg.jobmap.numRanks j,
    finsSent net (cfg.place j k) = 1

theorem Nonsyn.lt (h : cfg.Nonsyn j) : j < cfg.numJobs := h.1

theorem mem_nonsynJobs : j ∈ cfg.nonsynJobs ↔ cfg.Nonsyn j := by
  simp [nonsynJobs, Nonsyn]

theorem mem_synJobs : j ∈ cfg.synJobs ↔ cfg.Syn j := by
  simp [synJobs, Syn]

theorem mem_ranksOf {g : ℕ} :
    g ∈ cfg.ranksOf j ↔ ∃ k < cfg.jobmap.numRanks j, cfg.place j k = g := by
  simp [ranksOf]

theorem card_ranksOf (hj : j < cfg.numJobs) : (cfg.ranksOf j).card = cfg.jobmap.numRanks j := by
  unfold ranksOf
  rw [Finset.card_image_of_injOn, Finset.card_range]
  intro k hk k' hk' heq
  exact (place_inj hj (Finset.mem_range.1 hk) hj (Finset.mem_range.1 hk') heq).2

theorem finished_le (g : ℕ) (node : Node) : finished g node ≤ 1 := by
  unfold finished
  split_ifs <;> omega

open LpSystem in
theorem nodeSum_finished_le (hj : j < cfg.numJobs) (net : Net (fun _ : ℕ => Node) Event) :
    nodeSum (cfg.ranksOf j) finished net ≤ cfg.jobmap.numRanks j := by
  have hle := Finset.sum_le_card_nsmul (cfg.ranksOf j) (fun g => finished g (net.nodes g)) 1
    fun g _ => finished_le g _
  simpa [card_ranksOf hj, nodeSum] using hle

theorem root_place (h0 : cfg.Nonsyn 0) : cfg.jobmap.toLocalId (cfg.place 0 0) = ⟨0, 0⟩ :=
  cfg.jobmap.toLocal_toGlobal 0 h0.lt 0 (cfg.jobmap.numRanks_pos 0 h0.lt)

open LpSystem in
theorem init_inv (hnonsyn : ∃ j, cfg.Nonsyn j) : cfg.Inv cfg.init := by
  have hnodup : (cfg.places cfg.nonsynJobs).Nodup :=
    nodup_places (fun j hj => (mem_nonsynJobs.1 hj).1) (List.nodup_range.filter _)
  have hquiet (g : ℕ) {ev : Event} (hev : .traceEnd ≠ ev) :
      flightSum (eventsAt g ev) cfg.init.inFlight = 0 := flightSum_map_of_ne g hev _
  refine ⟨fun _ => ⟨rfl, rfl⟩, fun x hx => ?_, fun j hj g hg => ?_, fun j hj => ?_, fun j hj => ?_,
    fun _ _ => rfl, fun _ g => ?_, fun hall => ?_⟩
  · obtain ⟨g, hg, rfl⟩ := List.mem_map.1 hx
    obtain ⟨j, hj, k, hk, rfl⟩ := mem_places.1 hg
    exact ⟨j, mem_nonsynJobs.1 hj, k, hk, rfl⟩
  · obtain ⟨k, hk, rfl⟩ := mem_ranksOf.1 hg
    have hmem : cfg.place j k ∈ cfg.places cfg.nonsynJobs :=
      mem_places.2 ⟨j, mem_nonsynJobs.2 hj, k, hk, rfl⟩
    change 0 + flightSum _ ((cfg.places cfg.nonsynJobs).map _) = 1
    rw [flightSum_map, List.count_eq_one_of_mem hnodup hmem]
  · rw [hquiet _ (by simp)]
    exact (Finset.sum_eq_zero fun g _ => rfl).symm
  · rw [hquiet _ (by simp), if_neg]
    · rfl
    · exact (cfg.jobmap.numRanks_pos j hj.lt).ne
  · rw [finsSent, hquiet _ (by simp)]
    rfl
  · obtain ⟨j, hj⟩ := hnonsyn
    exact absurd (hall j hj) (by simp [init])

end Config

section Steps

open Finish.Config LpSystem

variable {cfg : Config} {net net' : Net (fun _ : ℕ => Node) Event} {d : ℕ} {e : Event} {node : Node}
  {outs rest : Outs}

/-- An LP has handled one of the events in flight. -/
structure Delivered (cfg : Config) (net net' : Net (fun _ : ℕ => Node) Event) (d : ℕ) (e : Event)
    (node : Node) (outs rest : Outs) : Prop where
  handled : cfg.system.Handled net net' () d e node outs rest
  perm : net.inFlight.Perm ((d, e) :: rest)

theorem Delivered.handle (h : Delivered cfg net net' d e node outs rest) :
    cfg.handle d (net.nodes d) e = some (node, outs) := h.handled.handle

theorem Delivered.mem (h : Delivered cfg net net' d e node outs rest) : (d, e) ∈ net.inFlight :=
  h.perm.mem_iff.2 List.mem_cons_self

theorem Delivered.field (f : Node → α) (h : Delivered cfg net net' d e node outs rest)
    (g : ℕ) : f (net'.nodes g) = if g = d then f node else f (net.nodes g) := by
  split_ifs with hg
  · rw [hg, h.handled.node_self]
  · rw [h.handled.node_of_ne hg]

/-- A field that the event leaves as it is. -/
theorem Delivered.same (f : Node → α) (h : Delivered cfg net net' d e node outs rest)
    (hf : f node = f (net.nodes d)) (g : ℕ) : f (net'.nodes g) = f (net.nodes g) := by
  rw [h.field f]
  split_ifs with hg
  · rw [hg, hf]
  · rfl

theorem Delivered.flight (ψ : ℕ → Event → ℕ) (h : Delivered cfg net net' d e node outs rest) :
    flightSum ψ net'.inFlight + ψ d e = flightSum ψ net.inFlight + flightSum ψ outs := by
  rw [h.handled.inFlight, flightSum_append, flightSum_perm ψ h.perm, flightSum_cons]
  omega

section

variable (h : Delivered cfg net net' d e node outs rest)
include h

theorem Delivered.events
    (hevents : ∀ x ∈ net.inFlight, cfg.EventOk x.1 x.2) (houts : ∀ x ∈ outs, cfg.EventOk x.1 x.2) :
    ∀ x ∈ net'.inFlight, cfg.EventOk x.1 x.2 := by
  intro x hx
  rw [h.handled.inFlight] at hx
  obtain hx | hx := List.mem_append.1 hx
  · exact hevents x (h.perm.mem_iff.2 (List.mem_cons_of_mem _ hx))
  · exact houts x hx

theorem Delivered.unmoved {g : ℕ} {ev : Event}
    (he : ¬(d = g ∧ e = ev)) (houts : flightSum (eventsAt g ev) outs = 0) :
    flightSum (eventsAt g ev) net'.inFlight = flightSum (eventsAt g ev) net.inFlight := by
  have hflight := h.flight (eventsAt g ev)
  rw [houts, eventsAt, if_neg he] at hflight
  omega

/-- The identity of an LP stays. -/
theorem Delivered.ids (hids : ∀ g, (net.nodes g).s.appId = (cfg.jobmap.toLocalId g).job ∧
      (net.nodes g).s.localRank = (cfg.jobmap.toLocalId g).rank)
    (happ : node.s.appId = (net.nodes d).s.appId)
    (hrank : node.s.localRank = (net.nodes d).s.localRank) (g : ℕ) :
    (net'.nodes g).s.appId = (cfg.jobmap.toLocalId g).job ∧
      (net'.nodes g).s.localRank = (cfg.jobmap.toLocalId g).rank := by
  rw [h.same (·.s.appId) happ, h.same (·.s.localRank) hrank]
  exact hids g

end

/-- What the root knows and what has been sent to the background stay. -/
structure SameNotices (cfg : Config) (net net' : Net (fun _ : ℕ => Node) Event) : Prop where
  known : ∀ j, (net'.nodes (cfg.place 0 0)).s.knownCompletedJobs j =
    (net.nodes (cfg.place 0 0)).s.knownCompletedJobs j
  sent : ∀ g, finsSent net' g = finsSent net g

theorem SameNotices.allKnown (h : SameNotices cfg net net') :
    cfg.AllKnown net' ↔ cfg.AllKnown net := by
  unfold AllKnown
  simp only [h.known]

theorem SameNotices.sentNone (hs : SameNotices cfg net net') (h : cfg.Inv net) :
    ¬cfg.AllKnown net' → ∀ g, finsSent net' g = 0 := by
  rw [hs.allKnown]
  intro hall g
  rw [hs.sent]
  exact h.sentNone hall g

theorem SameNotices.sentAll (hs : SameNotices cfg net net') (h : cfg.Inv net) :
    cfg.AllKnown net' → ∀ j, cfg.Syn j → ∀ k < cfg.jobmap.numRanks j,
      finsSent net' (cfg.place j k) = 1 := by
  rw [hs.allKnown]
  intro hall j hj k hk
  rw [hs.sent]
  exact h.sentAll hall j hj k hk

theorem place_root_inj {j' : ℕ} (hj : cfg.Nonsyn j) (hj' : cfg.Nonsyn j')
    (h : cfg.place j 0 = cfg.place j' 0) : j = j' :=
  (place_inj hj.lt (cfg.jobmap.numRanks_pos j hj.lt) hj'.lt (cfg.jobmap.numRanks_pos j' hj'.lt) h).1

/-- **The end of a trace.** -/
theorem Config.Inv.traceEnd (h : cfg.Inv net)
    (hd : Delivered cfg net net' d .traceEnd node outs rest) : cfg.Inv net' := by
  obtain ⟨j, hj, k, hk, rfl⟩ := h.events _ hd.mem
  obtain ⟨hnode, houtsEq⟩ := Prod.mk.inj (Option.some.inj hd.handle)
  have hjob : (net.nodes (cfg.place j k)).s.appId = j := by
    rw [(h.ids _).1, place, cfg.jobmap.toLocal_toGlobal j hj.lt k hk]
  have houtsEq : outs = [(cfg.place j 0, .nbrFinish)] := by
    rw [← houtsEq, handleTraceEnd, notifyRootRank, hjob]
  have hmem : cfg.place j k ∈ cfg.ranksOf j := mem_ranksOf.2 ⟨k, hk, rfl⟩
  -- the rank was not finished before
  have hone : 1 ≤ flightSum (eventsAt (cfg.place j k) .traceEnd) net.inFlight := by
    simpa [eventsAt] using le_flightSum (eventsAt (cfg.place j k) .traceEnd) hd.mem
  have hend := h.ends j hj _ hmem
  have houts (g : ℕ) (ev : Event) (hev : .nbrFinish ≠ ev) : flightSum (eventsAt g ev) outs = 0 := by
    rw [houtsEq]
    exact flightSum_map_of_ne g hev [_]
  have hsame : SameNotices cfg net net' := by
    refine ⟨fun i => congrFun (hd.same (·.s.knownCompletedJobs) (by rw [← hnode]; rfl) _) i,
      fun g => ?_⟩
    rw [finsSent, hd.same (·.fins) (by rw [← hnode]),
      hd.unmoved (by simp) (houts g .bckgndFin (by simp))]
    rfl
  have hnum (g : ℕ) : (net'.nodes g).s.numOwnJobRanksCompleted =
      (net.nodes g).s.numOwnJobRanksCompleted :=
    hd.same (·.s.numOwnJobRanksCompleted) (by rw [← hnode]; rfl) g
  have hfin : finished (cfg.place j k) node = 1 := by
    rw [← hnode]
    rfl
  refine ⟨hd.ids h.ids (by rw [← hnode]; rfl) (by rw [← hnode]; rfl),
    hd.events h.events fun x hx => ?_, fun j' hj' g hg => ?_, fun j' hj' => ?_, fun j' hj' => ?_,
    fun j' hj' => (hsame.known j').trans (h.foreign j' hj'), hsame.sentNone h, hsame.sentAll h⟩
  · rw [houtsEq] at hx
    obtain rfl := List.mem_singleton.1 hx
    exact ⟨j, hj, rfl⟩
  · by_cases hg' : cfg.place j k = g
    · subst hg'
      have hflight := hd.flight (eventsAt (cfg.place j k) .traceEnd)
      rw [houts _ _ (by simp)] at hflight
      rw [hd.handled.node_self, hfin]
      simp only [eventsAt, and_self, if_true] at hflight hend hone ⊢
      omega
    · rw [hd.handled.node_of_ne (Ne.symm hg'),
        hd.unmoved (fun hc => hg' hc.1) (houts g .traceEnd (by simp))]
      exact h.ends j' hj' g hg
  · have hgather := h.gather j' hj'
    have hflight := hd.flight (eventsAt (cfg.place j' 0) .nbrFinish)
    rw [hnum]
    by_cases hjj : j = j'
    · subst hjj
      have hsum := hd.handled.nodeSum finished hmem
      have hsent : flightSum (eventsAt (cfg.place j 0) .nbrFinish) outs = 1 := by
        simp [houtsEq, eventsAt]
      rw [hsent] at hflight
      rw [hfin] at hsum
      simp only [eventsAt, reduceCtorEq, and_false, if_false] at hflight hend hone hgather ⊢
      omega
    · have hnot : cfg.place j k ∉ cfg.ranksOf j' := by
        intro hin
        obtain ⟨k', hk', heq⟩ := mem_ranksOf.1 hin
        exact hjj (place_inj hj'.lt hk' hj.lt hk heq).1.symm
      have hsum : nodeSum (cfg.ranksOf j') finished net' = nodeSum (cfg.ranksOf j')
        finished net := by
        refine Finset.sum_congr rfl fun g hg => ?_
        rw [hd.handled.node_of_ne fun heq => hnot (heq ▸ hg)]
      have hsent : flightSum (eventsAt (cfg.place j' 0) .nbrFinish) outs = 0 := by
        have hne : cfg.place j 0 ≠ cfg.place j' 0 := fun heq => hjj (place_root_inj hj hj' heq)
        simp [houtsEq, eventsAt, hne]
      rw [hsum, hd.unmoved (by simp) hsent]
      exact hgather
  · rw [hsame.known, hnum, hd.unmoved (by simp) (houts _ _ (by simp))]
    exact h.report j' hj'

/-- **A job root hears of a rank.** -/
theorem Config.Inv.nbrFinish (h : cfg.Inv net)
    (hd : Delivered cfg net net' d .nbrFinish node outs rest) : cfg.Inv net' := by
  obtain ⟨j, hj, rfl⟩ := h.events _ hd.mem
  obtain ⟨hnode, houtsEq⟩ := Prod.mk.inj (Option.some.inj hd.handle)
  have hjob : (net.nodes (cfg.place j 0)).s.appId = j := by
    rw [(h.ids _).1, place, cfg.jobmap.toLocal_toGlobal j hj.lt 0 (cfg.jobmap.numRanks_pos j hj.lt)]
  have hnum : node.s.numOwnJobRanksCompleted =
      (net.nodes (cfg.place j 0)).s.numOwnJobRanksCompleted + 1 := by
    rw [← hnode]
    rfl
  have houtsEq : outs = if node.s.numOwnJobRanksCompleted = cfg.jobmap.numRanks j then
      [(cfg.place 0 0, .otherFinish j)] else [] := by
    rw [hnum, ← houtsEq, handleNeighborFinish, notifyRootWorkload, hjob]
  have houts (g : ℕ) (ev : Event) (hev : .otherFinish j ≠ ev) :
      flightSum (eventsAt g ev) outs = 0 := by
    rw [houtsEq]
    split_ifs
    · exact flightSum_map_of_ne g hev [_]
    · rfl
  have hsame : SameNotices cfg net net' := by
    refine ⟨fun i => congrFun (hd.same (·.s.knownCompletedJobs) (by rw [← hnode]; rfl) _) i,
      fun g => ?_⟩
    rw [finsSent, hd.same (·.fins) (by rw [← hnode]),
      hd.unmoved (by simp) (houts g .bckgndFin (by simp))]
    rfl
  have hfin (g : ℕ) : finished g (net'.nodes g) = finished g (net.nodes g) :=
    hd.same (finished g) (by rw [← hnode]; rfl) g
  have hsum (j' : ℕ) : nodeSum (cfg.ranksOf j') finished net' =
      nodeSum (cfg.ranksOf j') finished net := Finset.sum_congr rfl fun g _ => hfin g
  -- the job was not over as far as the root of the job knows
  have hone : 1 ≤ flightSum (eventsAt (cfg.place j 0) .nbrFinish) net.inFlight := by
    simpa [eventsAt] using le_flightSum (eventsAt (cfg.place j 0) .nbrFinish) hd.mem
  have hle := nodeSum_finished_le hj.lt net
  have hgather := h.gather j hj
  refine ⟨hd.ids h.ids (by rw [← hnode]; rfl) (by rw [← hnode]; rfl),
    hd.events h.events fun x hx => ?_, fun j' hj' g hg => ?_, fun j' hj' => ?_, fun j' hj' => ?_,
    fun j' hj' => (hsame.known j').trans (h.foreign j' hj'), hsame.sentNone h, hsame.sentAll h⟩
  · rw [houtsEq] at hx
    split_ifs at hx
    · obtain rfl := List.mem_singleton.1 hx
      exact ⟨hj, rfl⟩
    · cases hx
  · rw [hfin, hd.unmoved (by simp) (houts g .traceEnd (by simp))]
    exact h.ends j' hj' g hg
  · have hgather' := h.gather j' hj'
    rw [hsum]
    by_cases hjj : j = j'
    · subst hjj
      have hflight := hd.flight (eventsAt (cfg.place j 0) .nbrFinish)
      rw [houts _ _ (by simp)] at hflight
      rw [hd.handled.node_self, hnum]
      simp only [eventsAt, and_self, if_true] at hflight hgather ⊢
      omega
    · have hne : cfg.place j 0 ≠ cfg.place j' 0 := fun heq => hjj (place_root_inj hj hj' heq)
      rw [hd.handled.node_of_ne hne.symm, hd.unmoved (fun hc => hne hc.1) (houts _ _ (by simp))]
      exact hgather'
  · have hreport := h.report j' hj'
    rw [hsame.known]
    by_cases hjj : j = j'
    · subst hjj
      have hflight := hd.flight (eventsAt (cfg.place 0 0) (.otherFinish j))
      have hsent : flightSum (eventsAt (cfg.place 0 0) (.otherFinish j)) outs =
          if node.s.numOwnJobRanksCompleted = cfg.jobmap.numRanks j then 1 else 0 := by
        rw [houtsEq]
        split_ifs <;> simp [eventsAt]
      rw [if_neg (by omega)] at hreport
      rw [hsent] at hflight
      rw [hd.handled.node_self]
      simp only [eventsAt, reduceCtorEq, and_false, if_false] at hflight hreport ⊢
      omega
    · have hne : cfg.place j 0 ≠ cfg.place j' 0 := fun heq => hjj (place_root_inj hj hj' heq)
      rw [hd.handled.node_of_ne hne.symm,
        hd.unmoved (by simp) (houts _ _ (by simpa using hjj))]
      exact hreport

theorem notifyJobs_eq {jid : JobmapId} (h : ∀ j ∈ jobs, cfg.isJobSynthetic j = true → j ≠ jid.job) :
    cfg.notifyJobs jid jobs =
      some ((cfg.places (jobs.filter fun j => cfg.isJobSynthetic j)).map fun g =>
        (g, .bckgndFin)) := by
  induction jobs with
  | nil => rfl
  | cons j jobs ih =>
    obtain ⟨hj, hjobs⟩ := List.forall_mem_cons.1 h
    rw [notifyJobs, ih hjobs]
    cases hsyn : cfg.isJobSynthetic j with
    | false => simp [hsyn]
    | true => simp [hsyn, hj hsyn, places]

theorem numNonsynJobs_lt (hj : cfg.Syn j) : cfg.numNonsynJobs < cfg.numJobs := by
  have hlt : (List.range cfg.numJobs).countP (fun j => !cfg.isJobSynthetic j) <
      (List.range cfg.numJobs).length := by
    refine lt_of_le_of_ne List.countP_le_length fun heq => ?_
    have := List.countP_eq_length.1 heq j (List.mem_range.2 hj.1)
    simp [hj.2] at this
  simpa [numNonsynJobs] using hlt

theorem otherFinish_eq (h0 : cfg.Nonsyn 0) (hmax : cfg.maxGenData = 0) {s : NwState} {a : ℕ}
    (happ : s.appId = 0) (hrank : s.localRank = 0) :
    ∃ outs : Outs, cfg.handleOtherFinish (cfg.place 0 0) s a =
        some ({ s with knownCompletedJobs := update s.knownCompletedJobs a 1 }, outs) ∧
      outs = if cfg.totalCompleted
            { s with knownCompletedJobs := update s.knownCompletedJobs a 1 } =
              cfg.numNonsynJobs ∧ cfg.numNonsynJobs < cfg.numJobs then
          (cfg.places cfg.synJobs).map fun g => (g, .bckgndFin)
        else [] := by
  have hnotify : cfg.notifyBackgroundTraffic (cfg.place 0 0) =
      some ((cfg.places cfg.synJobs).map fun g => (g, .bckgndFin)) := by
    refine notifyJobs_eq fun j _ hsyn hj => ?_
    rw [root_place h0] at hj
    rw [hj, h0.2] at hsyn
    cases hsyn
  unfold handleOtherFinish
  rw [if_pos ⟨happ, hrank⟩]
  by_cases htotal : cfg.totalCompleted
      { s with knownCompletedJobs := update s.knownCompletedJobs a 1 } = cfg.numNonsynJobs
  · simp only [htotal, hmax, hnotify, true_and, le_refl, and_true, Option.map_some]
    split_ifs with hlt
    · exact ⟨_, rfl, rfl⟩
    · exact ⟨_, rfl, rfl⟩
  · simp only [htotal, false_and, if_false]
    exact ⟨_, rfl, rfl⟩

/-- **The root hears of a job.** -/
theorem Config.Inv.otherFinish (h : cfg.Inv net) (h0 : cfg.Nonsyn 0)
    (hmax : cfg.maxGenData = 0) {a : ℕ}
    (hd : Delivered cfg net net' d (.otherFinish a) node outs rest) : cfg.Inv net' := by
  obtain ⟨ha, rfl⟩ := h.events _ hd.mem
  have hlocal := root_place h0
  have happ : (net.nodes (cfg.place 0 0)).s.appId = 0 := by rw [(h.ids _).1, hlocal]
  have hrank : (net.nodes (cfg.place 0 0)).s.localRank = 0 := by rw [(h.ids _).2, hlocal]
  obtain ⟨outs', heq, houtsEq⟩ := otherFinish_eq h0 hmax (a := a) happ hrank
  have hhandle := hd.handle
  rw [Config.handle, heq] at hhandle
  obtain ⟨hnode, rfl⟩ := Prod.mk.inj (Option.some.inj hhandle)
  have houts (g : ℕ) (ev : Event) (hev : .bckgndFin ≠ ev) :
      flightSum (eventsAt g ev) outs' = 0 := by
    rw [houtsEq]
    split_ifs
    · exact flightSum_map_of_ne g hev _
    · rfl
  have hknown : node.s.knownCompletedJobs =
      update (net.nodes (cfg.place 0 0)).s.knownCompletedJobs a 1 := by rw [← hnode]
  have hnum (g : ℕ) : (net'.nodes g).s.numOwnJobRanksCompleted =
      (net.nodes g).s.numOwnJobRanksCompleted :=
    hd.same (·.s.numOwnJobRanksCompleted) (by rw [← hnode]) g
  have hfin (g : ℕ) : finished g (net'.nodes g) = finished g (net.nodes g) :=
    hd.same (finished g) (by rw [← hnode]; rfl) g
  have hsum (j' : ℕ) : nodeSum (cfg.ranksOf j') finished net' =
      nodeSum (cfg.ranksOf j') finished net := Finset.sum_congr rfl fun g _ => hfin g
  have hknown' (j : ℕ) : (net'.nodes (cfg.place 0 0)).s.knownCompletedJobs j =
      if j = a then 1 else (net.nodes (cfg.place 0 0)).s.knownCompletedJobs j := by
    rw [hd.handled.node_self, hknown, update_apply]
  -- the root did not know this yet
  have hone : 1 ≤ flightSum (eventsAt (cfg.place 0 0) (.otherFinish a)) net.inFlight := by
    simpa [eventsAt] using le_flightSum (eventsAt (cfg.place 0 0) (.otherFinish a)) hd.mem
  have hreport := h.report a ha
  have hnew : (net.nodes (cfg.place 0 0)).s.knownCompletedJobs a = 0 := by
    split_ifs at hreport <;> omega
  have hnone : ∀ g, finsSent net g = 0 := h.sentNone fun hall => by
    rw [hall a ha] at hnew
    cases hnew
  -- it has heard all exactly if none is missing
  have htotal : cfg.totalCompleted node.s = cfg.numNonsynJobs ↔ cfg.AllKnown net' := by
    have hbound (j : ℕ) (hj : j ∈ List.range cfg.numJobs) :
        node.s.knownCompletedJobs j ≤ if !cfg.isJobSynthetic j then 1 else 0 := by
      rw [← hd.handled.node_self, hknown']
      by_cases hja : j = a
      · simp [hja, ha.2]
      · rw [if_neg hja]
        by_cases hj' : cfg.Nonsyn j
        · have := h.report j hj'
          rw [hj'.2]
          split_ifs at this <;> simp only [Bool.not_false, if_true] <;> omega
        · rw [h.foreign j hj']
          exact Nat.zero_le _
    have hiff := (sum_map_eq_countP_iff hbound).2
    unfold totalCompleted numNonsynJobs
    rw [hiff, AllKnown, hd.handled.node_self]
    constructor
    · intro hall j hj
      exact hall j (List.mem_range.2 hj.1) (by simp [hj.2])
    · intro hall j hj hsyn
      exact hall j ⟨List.mem_range.1 hj, by simpa using hsyn⟩
  have hsent (g : ℕ) : finsSent net' g = flightSum (eventsAt g .bckgndFin) outs' := by
    have hg := hnone g
    have hflight := hd.flight (eventsAt g .bckgndFin)
    rw [finsSent] at hg ⊢
    rw [hd.same (·.fins) (by rw [← hnode])]
    simp only [eventsAt, reduceCtorEq, and_false, if_false] at hflight hg ⊢
    omega
  have houtsEq' : outs' = if cfg.totalCompleted node.s = cfg.numNonsynJobs ∧
      cfg.numNonsynJobs < cfg.numJobs then (cfg.places cfg.synJobs).map fun g => (g, .bckgndFin)
        else [] := by
    rw [houtsEq, ← hnode]
  refine ⟨hd.ids h.ids (by rw [← hnode]) (by rw [← hnode]), hd.events h.events fun x hx => ?_,
    fun j hj g hg => ?_, fun j hj => ?_, fun j hj => ?_, fun j hj => ?_, fun hall g => ?_,
    fun hall j hj k hk => ?_⟩
  · rw [houtsEq] at hx
    split_ifs at hx
    · obtain ⟨g, hg, rfl⟩ := List.mem_map.1 hx
      obtain ⟨j, hj, k, hk, rfl⟩ := mem_places.1 hg
      exact ⟨j, mem_synJobs.1 hj, k, hk, rfl⟩
    · cases hx
  · rw [hfin, hd.unmoved (by simp) (houts g .traceEnd (by simp))]
    exact h.ends j hj g hg
  · rw [hsum, hnum, hd.unmoved (by simp) (houts _ _ (by simp))]
    exact h.gather j hj
  · rw [hknown', hnum]
    by_cases hja : j = a
    · subst hja
      have hflight := hd.flight (eventsAt (cfg.place 0 0) (.otherFinish j))
      rw [houts _ _ (by simp)] at hflight
      rw [if_pos rfl]
      simp only [eventsAt, and_self, if_true] at hflight hreport hone ⊢
      split_ifs at hreport ⊢ <;> omega
    · rw [if_neg hja, hd.unmoved (fun hc => hja (Event.otherFinish.inj hc.2).symm)
        (houts _ _ (by simp))]
      exact h.report j hj
  · rw [hknown', if_neg fun hja : j = a => hj (hja ▸ ha)]
    exact h.foreign j hj
  · rw [hsent, houtsEq', if_neg fun hc => hall (htotal.1 hc.1)]
    rfl
  · have hmem : cfg.place j k ∈ cfg.places cfg.synJobs :=
      mem_places.2 ⟨j, mem_synJobs.2 hj, k, hk, rfl⟩
    have hnodup : (cfg.places cfg.synJobs).Nodup :=
      nodup_places (fun j hj => (mem_synJobs.1 hj).1) (List.nodup_range.filter _)
    rw [hsent, houtsEq', if_pos ⟨htotal.2 hall, numNonsynJobs_lt hj⟩, flightSum_map,
      List.count_eq_one_of_mem hnodup hmem]

/-- **A background rank is told to stop.** -/
theorem Config.Inv.bckgndFin (h : cfg.Inv net)
    (hd : Delivered cfg net net' d .bckgndFin node outs rest) : cfg.Inv net' := by
  obtain ⟨j₀, hj₀, k₀, hk₀, rfl⟩ := h.events _ hd.mem
  obtain ⟨hnode, rfl⟩ := Prod.mk.inj (Option.some.inj hd.handle)
  have hnum (g : ℕ) : (net'.nodes g).s.numOwnJobRanksCompleted =
      (net.nodes g).s.numOwnJobRanksCompleted :=
    hd.same (·.s.numOwnJobRanksCompleted) (by rw [← hnode]) g
  have hsame : SameNotices cfg net net' := by
    refine ⟨fun i => congrFun (hd.same (·.s.knownCompletedJobs) (by rw [← hnode]) _) i, fun g => ?_⟩
    have hflight := hd.flight (eventsAt g .bckgndFin)
    have hfins := hd.field (·.fins) g
    rw [finsSent, finsSent, hfins]
    rw [flightSum_nil] at hflight
    by_cases hg : g = cfg.place j₀ k₀
    · have hone : 1 ≤ flightSum (eventsAt (cfg.place j₀ k₀) .bckgndFin) net.inFlight := by
        simpa [eventsAt] using le_flightSum (eventsAt (cfg.place j₀ k₀) .bckgndFin) hd.mem
      subst hg
      rw [if_pos rfl, ← hnode]
      simp only [eventsAt, and_self, if_true] at hflight hone ⊢
      omega
    · rw [if_neg hg]
      rw [eventsAt, if_neg fun hc => hg hc.1.symm] at hflight
      omega
  -- the rank is of a synthetic job
  have hfin (j : ℕ) (hj : cfg.Nonsyn j) (g : ℕ) (hg : g ∈ cfg.ranksOf j) :
      finished g (net'.nodes g) = finished g (net.nodes g) := by
    obtain ⟨k, hk, rfl⟩ := mem_ranksOf.1 hg
    have hne : cfg.place j k ≠ cfg.place j₀ k₀ := fun heq => by
      have hjj := (place_inj hj.lt hk hj₀.1 hk₀ heq).1
      have hsyn := hj₀.2
      rw [← hjj, hj.2] at hsyn
      cases hsyn
    rw [hd.handled.node_of_ne hne]
  refine ⟨hd.ids h.ids (by rw [← hnode]) (by rw [← hnode]), hd.events h.events (by simp),
    fun j hj g hg => ?_, fun j hj => ?_, fun j hj => ?_,
    fun j hj => (hsame.known j).trans (h.foreign j hj), hsame.sentNone h, hsame.sentAll h⟩
  · rw [hfin j hj g hg, hd.unmoved (by simp) rfl]
    exact h.ends j hj g hg
  · have hsum : nodeSum (cfg.ranksOf j) finished net' = nodeSum (cfg.ranksOf j) finished net :=
      Finset.sum_congr rfl fun g hg => hfin j hj g hg
    rw [hsum, hnum, hd.unmoved (by simp) rfl]
    exact h.gather j hj
  · rw [hsame.known, hnum, hd.unmoved (by simp) rfl]
    exact h.report j hj

/-- A step of a run: an event in flight is delivered. -/
def IsDelivery : NetLabel ℕ Event Unit → Prop
  | .deliver _ _ => True
  | .inject _ _ _ => False

theorem delivered_of_step {l : NetLabel ℕ Event Unit} (hl : IsDelivery l)
    (h : cfg.system.machine.step net l = some net') :
    ∃ d e node outs rest, Delivered cfg net net' d e node outs rest := by
  obtain ⟨⟨⟩, d, e, node, outs, rest, hh, ⟨rfl, -⟩ | ⟨-, hperm⟩⟩ := LpSystem.step_cases h
  · exact absurd hl id
  · exact ⟨d, e, node, outs, rest, hh, hperm⟩

theorem Config.Inv.step (h : cfg.Inv net) (h0 : cfg.Nonsyn 0) (hmax : cfg.maxGenData = 0)
    {l : NetLabel ℕ Event Unit} (hl : IsDelivery l)
    (hstep : cfg.system.machine.step net l = some net') : cfg.Inv net' := by
  obtain ⟨d, e, node, outs, rest, hd⟩ := delivered_of_step hl hstep
  cases e with
  | traceEnd => exact h.traceEnd hd
  | nbrFinish => exact h.nbrFinish hd
  | otherFinish a => exact h.otherFinish h0 hmax hd
  | bckgndFin => exact h.bckgndFin hd

/-- A rank of a job that is not synthetic has not finished. -/
def Unfinished (cfg : Config) (net : Net (fun _ : ℕ => Node) Event) : Prop :=
  ∃ j, cfg.Nonsyn j ∧ ∃ k < cfg.jobmap.numRanks j, (net.nodes (cfg.place j k)).s.isFinished = false

/-- All ranks have finished, and all notices about it were delivered. -/
def Quiet (net : Net (fun _ : ℕ => Node) Event) : Prop := ∀ x ∈ net.inFlight, x.2 = .bckgndFin

/-- What the notices are for: no assertion fails, no background rank is told to stop while another
rank still runs, and in the end each of them has been told once. -/
structure GoesWell (cfg : Config) (net : Net (fun _ : ℕ => Node) Event) : Prop where
  asserts : ∀ x ∈ net.inFlight, cfg.handle x.1 (net.nodes x.1) x.2 ≠ none
  early : Unfinished cfg net → ∀ g, finsSent net g = 0
  once : Quiet net → ∀ j, cfg.Syn j → ∀ k < cfg.jobmap.numRanks j, finsSent net (cfg.place j k) = 1

theorem Config.Inv.goesWell (h : cfg.Inv net) (h0 : cfg.Nonsyn 0) (hmax : cfg.maxGenData = 0) :
    GoesWell cfg net := by
  refine ⟨fun x hx => ?_, fun ⟨j, hj, k, hk, hfin⟩ => ?_, fun hquiet => ?_⟩
  · obtain ⟨d, e⟩ := x
    cases e with
    | traceEnd => nofun
    | nbrFinish => nofun
    | otherFinish a =>
      obtain ⟨-, rfl⟩ := h.events _ hx
      have hlocal := root_place h0
      obtain ⟨outs, heq, -⟩ := otherFinish_eq h0 hmax (a := a)
        (by rw [(h.ids _).1, hlocal] : (net.nodes (cfg.place 0 0)).s.appId = 0)
        (by rw [(h.ids _).2, hlocal])
      rw [Config.handle, heq]
      nofun
    | bckgndFin => nofun
  · refine h.sentNone fun hall => ?_
    -- if the root knows that the job is over, all its ranks have finished
    have hreport := h.report j hj
    have hgather := h.gather j hj
    have hlt : nodeSum (cfg.ranksOf j) finished net < cfg.jobmap.numRanks j := by
      have hmem : cfg.place j k ∈ cfg.ranksOf j := mem_ranksOf.2 ⟨k, hk, rfl⟩
      have hsum := Finset.sum_lt_sum (s := cfg.ranksOf j) (g := fun _ => 1)
        (fun g _ => finished_le g (net.nodes g)) ⟨_, hmem, by simp [finished, hfin]⟩
      simpa [nodeSum, card_ranksOf hj.lt] using hsum
    rw [hall j hj, if_neg (by omega)] at hreport
    omega
  · have hnone (g : ℕ) (ev : Event) (hev : ev ≠ .bckgndFin) :
        flightSum (eventsAt g ev) net.inFlight = 0 := by
      rw [← List.map_id net.inFlight]
      refine List.sum_eq_zero fun n hn => ?_
      obtain ⟨x, hx, rfl⟩ := List.mem_map.1 hn
      rw [List.map_id] at hx
      simp [eventsAt, hquiet x hx, hev.symm]
    refine h.sentAll fun j hj => ?_
    have hfin : nodeSum (cfg.ranksOf j) finished net = cfg.jobmap.numRanks j := by
      have hone (g : ℕ) (hg : g ∈ cfg.ranksOf j) : finished g (net.nodes g) = 1 := by
        have hend := h.ends j hj g hg
        rwa [hnone _ _ (by simp)] at hend
      rw [nodeSum, Finset.sum_congr rfl hone]
      simp [card_ranksOf hj.lt]
    have hgather := h.gather j hj
    have hreport := h.report j hj
    rw [hnone _ _ (by simp), add_zero, hfin] at hgather
    rwa [hnone _ _ (by simp), if_pos hgather] at hreport

end Steps

/-- All goes well in every state of every run. -/
def Notified (cfg : Config) : Prop :=
  ∀ ls net, (∀ l ∈ ls, IsDelivery l) → cfg.system.machine.run cfg.init ls = some net →
    GoesWell cfg net

/-! ### A synthetic root -/

section Synthetic

open Finish.Config LpSystem

variable {cfg : Config} {net net' : Net (fun _ : ℕ => Node) Event}

theorem notifyJobs_none {jid : JobmapId} (hmem : jid.job ∈ jobs)
    (hsyn : cfg.isJobSynthetic jid.job = true) : cfg.notifyJobs jid jobs = none := by
  induction jobs with
  | nil => cases hmem
  | cons j jobs ih =>
    rw [notifyJobs]
    by_cases hj : j = jid.job
    · rw [if_neg (by simp [hj, hsyn]), if_pos hj]
    · have hrest := ih ((List.mem_cons.1 hmem).resolve_left fun h => hj h.symm)
      split_ifs
      · exact hrest
      · rw [hrest]
        rfl

/-- Nobody has been told to stop. -/
structure Silent (cfg : Config) (net : Net (fun _ : ℕ => Node) Event) : Prop where
  ids : ∀ g, (net.nodes g).s.appId = (cfg.jobmap.toLocalId g).job ∧
    (net.nodes g).s.localRank = (cfg.jobmap.toLocalId g).rank
  fins : ∀ g, (net.nodes g).fins = 0
  flight : ∀ x ∈ net.inFlight, x.2 ≠ .bckgndFin

/-- How far the notices have to go. -/
def weightOf (_ : ℕ) : Event → ℕ
  | .traceEnd => 3
  | .nbrFinish => 2
  | .otherFinish _ => 1
  | .bckgndFin => 0

variable {d : ℕ} {e : Event} {node : Node} {outs rest : Outs}

/-- What an event does when the root job is synthetic: the LP keeps its identity, nobody is told to
stop, and the notices have less far to go. -/
theorem Silent.handle (h : Silent cfg net) (hsyn : cfg.Syn 0) (he : e ≠ .bckgndFin)
    (hok : cfg.handle d (net.nodes d) e = some (node, outs)) :
    node.s.appId = (net.nodes d).s.appId ∧ node.s.localRank = (net.nodes d).s.localRank ∧
      node.fins = (net.nodes d).fins ∧ (∀ x ∈ outs, x.2 ≠ .bckgndFin) ∧
      flightSum weightOf outs < weightOf d e := by
  cases e with
  | traceEnd =>
    obtain ⟨rfl, rfl⟩ := Prod.mk.inj (Option.some.inj hok)
    exact ⟨rfl, rfl, rfl, by simp [handleTraceEnd, notifyRootRank],
      by simp [handleTraceEnd, notifyRootRank, weightOf]⟩
  | nbrFinish =>
    obtain ⟨rfl, rfl⟩ := Prod.mk.inj (Option.some.inj hok)
    refine ⟨rfl, rfl, rfl, ?_, ?_⟩
    · unfold handleNeighborFinish notifyRootWorkload
      dsimp only
      split_ifs <;> simp
    · unfold handleNeighborFinish notifyRootWorkload
      dsimp only
      split_ifs <;> simp [weightOf]
  | otherFinish a =>
    obtain ⟨r, hr, heq⟩ := Option.map_eq_some_iff.1 hok
    obtain ⟨rfl, rfl⟩ := Prod.mk.inj heq
    unfold handleOtherFinish at hr
    dsimp only at hr
    split_ifs at hr with hroot
    · -- the root comes to its own job
      have hjob : (cfg.jobmap.toLocalId d).job = 0 := by rw [← (h.ids d).1, hroot.1]
      have hnone : cfg.notifyBackgroundTraffic d = none :=
        notifyJobs_none (by rw [hjob]; exact List.mem_range.2 hsyn.1) (by rw [hjob]; exact hsyn.2)
      rw [hnone] at hr
      cases hr
    · obtain rfl := Option.some.inj hr
      exact ⟨rfl, rfl, rfl, by simp, by simp [weightOf]⟩
  | bckgndFin => exact absurd rfl he

theorem Silent.step (h : Silent cfg net) (hsyn : cfg.Syn 0)
    (hd : Delivered cfg net net' d e node outs rest) :
    Silent cfg net' ∧ flightSum weightOf net'.inFlight < flightSum weightOf net.inFlight := by
  have he : e ≠ .bckgndFin := h.flight (d, e) hd.mem
  obtain ⟨happ, hrank, hfins, houts, hlt⟩ := h.handle hsyn he hd.handle
  refine ⟨⟨hd.ids h.ids happ hrank, fun g => ?_, fun x hx => ?_⟩, ?_⟩
  · rw [hd.same (·.fins) hfins]
    exact h.fins g
  · rw [hd.handled.inFlight] at hx
    obtain hx | hx := List.mem_append.1 hx
    · exact h.flight x (hd.perm.mem_iff.2 (List.mem_cons_of_mem _ hx))
    · exact houts x hx
  · have hflight := hd.flight weightOf
    omega

/-- From a state in which nobody was told to stop it cannot go well. -/
theorem Silent.not_goesWell (hsyn : cfg.Syn 0) (h : Silent cfg net)
    (hwell : ∀ ls net', (∀ l ∈ ls, IsDelivery l) → cfg.system.machine.run net ls = some net' →
      GoesWell cfg net') : False := by
  induction hn : flightSum weightOf net.inFlight using Nat.strong_induction_on generalizing net with
  | _ n ih =>
    have hhere := hwell [] net (by simp) rfl
    cases hflight : net.inFlight with
    | nil =>
      -- nothing is left to be delivered, and rank 0 of the root has not been told
      have hquiet : Quiet net := fun x hx => by
        rw [hflight] at hx
        cases hx
      have hone := hhere.once hquiet 0 hsyn 0 (cfg.jobmap.numRanks_pos 0 hsyn.1)
      rw [finsSent, h.fins, hflight] at hone
      cases hone
    | cons x xs =>
      obtain ⟨d, e⟩ := x
      have hmem : (d, e) ∈ net.inFlight := by
        rw [hflight]
        exact List.mem_cons_self
      obtain ⟨⟨node, outs⟩, hok⟩ := Option.ne_none_iff_exists'.1 (hhere.asserts _ hmem)
      have hstep : cfg.system.machine.step net (.deliver 0 ()) =
          some ⟨update net.nodes d node, xs ++ outs⟩ := by
        change (net.inFlight[0]?.bind fun x => cfg.system.process net () x.1 x.2 _) = _
        rw [hflight]
        change (cfg.handle d (net.nodes d) e).map _ = _
        rw [hok]
        rfl
      obtain ⟨d', e', node', outs', rest', hd⟩ := delivered_of_step (by exact trivial) hstep
      obtain ⟨hsilent, hlt⟩ := h.step hsyn hd
      refine ih _ (hn ▸ hlt) hsilent (fun ls net'' hls hrun => ?_) rfl
      refine hwell (.deliver 0 () :: ls) net'' ?_ (Machine.run_cons_eq_some.2 ⟨_, hstep, hrun⟩)
      exact List.forall_mem_cons.2 ⟨trivial, hls⟩

theorem init_silent : Silent cfg cfg.init where
  ids _ := ⟨rfl, rfl⟩
  fins _ := rfl
  flight x hx := by
    obtain ⟨g, -, rfl⟩ := List.mem_map.1 hx
    nofun

end Synthetic

/-- **The end of the workloads.**  The notices do what they are for exactly when job 0 is not
synthetic. -/
theorem notified_iff (cfg : Config) (hmax : cfg.maxGenData = 0) (hnonsyn : ∃ j, cfg.Nonsyn j) :
    Notified cfg ↔ cfg.isJobSynthetic 0 = false := by
  have hpos : 0 < cfg.numJobs := by
    obtain ⟨j, hj⟩ := hnonsyn
    exact Nat.zero_lt_of_lt hj.lt
  constructor
  · intro hwell
    by_contra hsyn
    exact Silent.not_goesWell ⟨hpos, by simpa using hsyn⟩ init_silent hwell
  · intro h0 ls net hls hrun
    have hinv : cfg.Inv net := Machine.run_invariant (P := IsDelivery)
      (fun _ _ _ h hl hstep => h.step ⟨hpos, h0⟩ hmax hl hstep) (Config.init_inv hnonsyn) hls hrun
    exact hinv.goesWell ⟨hpos, h0⟩ hmax

/-- Two jobs of one rank each. -/
def twoJobs (isJobSynthetic : ℕ → Bool) : Config where
  jobmap :=
    { numJobs := 2
      numRanks := fun _ => 1
      toGlobalId := fun id => id.job
      toLocalId := fun g => ⟨g, 0⟩
      numRanks_pos := fun _ _ => Nat.one_pos
      toLocal_toGlobal := fun j _ k hk => by rw [Nat.lt_one_iff.1 hk] }
  isJobSynthetic := isJobSynthetic
  maxGenData := 0

theorem notified_iff_twoJobs : Notified (twoJobs fun j => j = 1) ↔ (decide (0 = 1)) = false :=
  notified_iff (twoJobs fun j => j = 1) rfl ⟨0, by decide, by decide⟩

/-- Job 0 makes background traffic: when it hears that job 1 is over, an assertion fails. -/
theorem synthetic_root_fails : ∃ net, (twoJobs fun j => j = 0).system.machine.run
      (twoJobs fun j => j = 0).init [.deliver 0 (), .deliver 0 ()] = some net ∧
    net.inFlight = [(0, .otherFinish 1)] ∧
    (twoJobs fun j => j = 0).handle 0 (net.nodes 0) (.otherFinish 1) = none ∧
    ¬Notified (twoJobs fun j => j = 0) := by
  refine ⟨_, rfl, rfl, rfl, fun h => ?_⟩
  have hwell := h [.deliver 0 (), .deliver 0 ()] _ (by simp [IsDelivery]) rfl
  exact hwell.asserts (0, .otherFinish 1) List.mem_cons_self rfl

end Finish

end CodesSim.Replay
