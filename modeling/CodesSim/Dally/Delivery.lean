import CodesSim.Dally.Reassembly
import Mathlib.Tactic.IntervalCases

/-!
# Messages are delivered once

`recvMachine` is a terminal that receives the chunks of a list of messages, in any order and between
any other events.  In every run that meets the condition (`Meets`) the remote event of a message is
issued once, when its last missing chunk arrives, and the message leaves nothing behind
(`messages_delivered`).
-/

namespace CodesSim.Dally

open Function

/-! ### Receiving -/

/-- A chunk, by the positions of the message in the list, of the packet and of the chunk. -/
structure ChunkName where
  (message packet chunk : ℕ)
  deriving DecidableEq

/-- An event at a terminal, with the name of the chunk that arrives, if one does. -/
structure Arrival where
  name : Option ChunkName
  env : Env
  msg : Msg

/-- A terminal, the chunks that have arrived and the remote events issued, with the messages on
whose account they were issued. -/
structure Recv where
  term : Terminal
  arrived : List ChunkName
  issued : List (ℕ × Out)

def Recv.init : Recv := ⟨Terminal.init, [], []⟩

/-- The terminal `self` as a machine. -/
def recvMachine (p : Param) (t : Topology p) (self : ℕ) : Machine Recv Arrival where
  step r a := (terminalEvent p t a.env self r.term a.msg).map fun res =>
    { term := res.state
      arrived := a.name.toList ++ r.arrived
      issued := r.issued ++
        a.name.toList.flatMap fun n => (remoteEvents res.outs).map fun out => (n.message, out) }

/-- The remote events issued on account of message `k`. -/
def Recv.issuedFor (r : Recv) (k : ℕ) : List Out :=
  (r.issued.filter fun x => x.1 = k).map Prod.snd

/-- How many chunks of packet `i` of message `k` are in a list. -/
def arrivedOf (done : List ChunkName) (k i : ℕ) : ℕ :=
  done.countP fun n => n.message = k ∧ n.packet = i

/-- What the senders promise: a terminal does not send to itself, and a message and a packet are
identified by their keys. -/
structure Sends (p : Param) (dest : ℕ) (ms : List Message) : Prop where
  src_ne : ∀ m ∈ ms, m.src ≠ dest
  rankKey_inj : ∀ {k k' : ℕ} {m m' : Message}, ms[k]? = some m → ms[k']? = some m' →
    m.rankKey = m'.rankKey → k = k'
  packetKey_inj : ∀ {k k' i i' : ℕ} {m m' : Message}, ms[k]? = some m → ms[k']? = some m' →
    i < m.numPackets p → i' < m'.numPackets p → m.packetKey i = m'.packetKey i' → k = k' ∧ i = i'

/-- `n` names a chunk of one of the messages. -/
def ChunkName.Valid (p : Param) (ms : List Message) (n : ChunkName) : Prop :=
  ∃ m, ms[n.message]? = some m ∧ n.packet < m.numPackets p ∧ n.chunk < m.numChunks p n.packet

/-- One for a message of which some chunks have arrived and some have not. -/
def busy (p : Param) (ms : List Message) (k : ℕ) (cnt : ℕ → ℕ) : ℕ :=
  match ms[k]? with
  | some m => if m.arrived p cnt = 0 ∨ m.missing p cnt = 0 then 0 else 1
  | none => 0

/-- The number of these messages. -/
def inProgress (p : Param) (ms : List Message) (done : List ChunkName) : ℕ :=
  ∑ k ∈ Finset.range ms.length, busy p ms k (arrivedOf done k)

/-- All chunks of message `k` have arrived. -/
def Complete (p : Param) (m : Message) (k : ℕ) (done : List ChunkName) : Prop :=
  ∀ i < m.numPackets p, ∀ j < m.numChunks p i, ⟨k, i, j⟩ ∈ done

/-- The category that an event is counted under: the terminal counts what it generates and what
arrives. -/
def Arrival.countedCategory (a : Arrival) : Option String :=
  if a.msg.type = .tGenerate ∨ a.msg.type = .tArrive then some a.msg.category else none

/-- **The condition on a step.**  Either no chunk arrives, or it is a chunk that has not arrived yet
such that the table has room for its message, and the last chunk of a pull request is one of its
last packet, which has the payload. -/
def StepOk (p : Param) (self : ℕ) (ms : List Message) (done : List ChunkName) (a : Arrival) :
    Prop :=
  match a.name with
  | none => a.msg.type ≠ .tArrive
  | some n => ∃ m, ms[n.message]? = some m ∧ n.packet < m.numPackets p ∧
      n.chunk < m.numChunks p n.packet ∧ n ∉ done ∧ m.IsChunk p self n.packet n.chunk a.msg ∧
      ((∀ n' ∈ done, n'.message ≠ n.message) → inProgress p ms done + 1 < hashTableSize) ∧
      (m.req.isPull = true → Complete p m n.message (n :: done) → n.packet + 1 = m.numPackets p)

/-- Every step of a run meets the condition. -/
def Meets (p : Param) (self : ℕ) (ms : List Message) : List ChunkName → List Arrival → Prop
  | _, [] => True
  | done, a :: as => StepOk p self ms done a ∧ Meets p self ms (a.name.toList ++ done) as

/-! ### Counting chunks -/
variable {n : ChunkName}


section

variable {p : Param} {ms : List Message} {done : List ChunkName} {m : Message} {k i : ℕ}

theorem arrivedOf_cons (n : ChunkName) (done : List ChunkName) :
    arrivedOf (n :: done) = update (arrivedOf done) n.message
      (update (arrivedOf done n.message) n.packet
        (arrivedOf done n.message n.packet + 1)) := by
  funext k i
  by_cases hk : k = n.message
  · subst hk
    rw [update_self]
    by_cases hi : i = n.packet
    · subst hi
      simp [arrivedOf]
    · rw [update_of_ne hi]
      simp [arrivedOf, Ne.symm hi]
  · rw [update_of_ne hk]
    simp [arrivedOf, Ne.symm hk]

/-- The chunks of packet `i` of message `k` in a list. -/
def chunksIn (done : List ChunkName) (k i : ℕ) : List ℕ :=
  (done.filter fun n => n.message = k ∧ n.packet = i).map ChunkName.chunk

theorem length_chunksIn (done : List ChunkName) (k i : ℕ) :
    (chunksIn done k i).length = arrivedOf done k i := by
  rw [chunksIn, List.length_map, arrivedOf, List.countP_eq_length_filter]

theorem mem_chunksIn {j : ℕ} : j ∈ chunksIn done k i ↔ ⟨k, i, j⟩ ∈ done := by
  simp only [chunksIn, List.mem_map, List.mem_filter, decide_eq_true_eq]
  constructor
  · rintro ⟨⟨k', i', j'⟩, ⟨hmem, rfl, rfl⟩, rfl⟩
    exact hmem
  · exact fun hmem => ⟨_, ⟨hmem, rfl, rfl⟩, rfl⟩

theorem nodup_chunksIn (h : done.Nodup) : (chunksIn done k i).Nodup := by
  refine List.Nodup.map_on (fun n hn n' hn' hchunk => ?_) (h.filter _)
  simp only [List.mem_filter, decide_eq_true_eq] at hn hn'
  obtain ⟨k₁, i₁, j₁⟩ := n
  obtain ⟨k₂, i₂, j₂⟩ := n'
  simp_all

variable (hvalid : ∀ n ∈ done, n.Valid p ms) (hm : ms[k]? = some m)

include hvalid hm

theorem chunksIn_subperm (hnodup : done.Nodup) (i : ℕ) :
    (chunksIn done k i).Subperm (List.range (m.numChunks p i)) := by
  refine List.subperm_of_subset (nodup_chunksIn hnodup) fun j hj => ?_
  obtain ⟨m', hm', -, hlt⟩ := hvalid _ (mem_chunksIn.1 hj)
  rw [hm] at hm'
  cases hm'
  exact List.mem_range.2 hlt

theorem arrivedOf_le (hnodup : done.Nodup) (i : ℕ) : arrivedOf done k i ≤ m.numChunks p i := by
  have := (chunksIn_subperm hvalid hm hnodup i).length_le
  rwa [length_chunksIn, List.length_range] at this

theorem arrivedOf_eq_iff (hnodup : done.Nodup) :
    arrivedOf done k i = m.numChunks p i ↔ ∀ j < m.numChunks p i, ⟨k, i, j⟩ ∈ done := by
  have hsub := chunksIn_subperm hvalid hm hnodup i
  rw [← length_chunksIn]
  constructor
  · intro hlen j hj
    have hperm := hsub.perm_of_length_le (by rw [hlen, List.length_range])
    exact mem_chunksIn.1 (hperm.mem_iff.2 (List.mem_range.2 hj))
  · intro hall
    have hrange : (List.range (m.numChunks p i)).Subperm (chunksIn done k i) :=
      List.subperm_of_subset List.nodup_range fun j hj =>
        mem_chunksIn.2 (hall j (List.mem_range.1 hj))
    have := hsub.length_le
    have := hrange.length_le
    rw [List.length_range] at *
    omega

theorem missing_eq_zero_iff (hnodup : done.Nodup) :
    m.missing p (arrivedOf done k) = 0 ↔ Complete p m k done := by
  rw [Message.missing_eq_zero]
  exact forall₂_congr fun i _ => arrivedOf_eq_iff hvalid hm hnodup

omit hm in
/-- There is still room for a chunk that has not arrived. -/
theorem arrivedOf_lt (hnodup : done.Nodup) (hn : n ∉ done)
    (hm : ms[n.message]? = some m) (hlt : n.chunk < m.numChunks p n.packet) :
    arrivedOf done n.message n.packet < m.numChunks p n.packet := by
  refine lt_of_le_of_ne (arrivedOf_le hvalid hm hnodup _) fun heq => hn ?_
  exact (arrivedOf_eq_iff hvalid hm hnodup).1 heq n.chunk hlt

end

/-! ### Runs -/

/-- The state of a receiver after the chunks in `r.arrived`. -/
structure Recv.Inv (p : Param) (ms : List Message) (r : Recv) : Prop where
  nodup : r.arrived.Nodup
  valid : ∀ n ∈ r.arrived, n.Valid p ms
  zombies : ∀ key, r.term.zombies key = false
  rankTbl : ∀ (k : ℕ) (m : Message), ms[k]? = some m →
    r.term.rankTbl m.rankKey = m.entry p (arrivedOf r.arrived k)
  remaining : ∀ (k : ℕ) (m : Message), ms[k]? = some m → ∀ i < m.numPackets p,
    r.term.remainingSzPackets (m.packetKey i) = m.remaining p i (arrivedOf r.arrived k i)
  pop : r.term.rankTblPop = inProgress p ms r.arrived
  issued : ∀ (k : ℕ) (m : Message), ms[k]? = some m →
    r.issuedFor k = if m.missing p (arrivedOf r.arrived k) = 0 then m.events else []

section

variable {p : Param} {t : Topology p} {self : ℕ} {ms : List Message} {r r' : Recv} {a : Arrival}

theorem Message.Fits.missing_ne {m : Message} (h : m.Fits p) (hP : 0 < p.packetSize) :
    m.missing p (arrivedOf [] 0) ≠ 0 := by
  intro h0
  have := Message.missing_eq_zero.1 h0 0 Message.numPackets_pos
  have := h.numChunks_pos hP (Message.numPackets_pos (p := p) (m := m))
  simp only [arrivedOf, List.countP_nil] at *
  omega

theorem Recv.inv_init (hP : 0 < p.packetSize) (hfits : ∀ m ∈ ms, m.Fits p) :
    Recv.Inv p ms Recv.init := by
  have h0 : ∀ m : Message, m.arrived p (arrivedOf [] 0) = 0 := fun m =>
    Message.arrived_eq_zero.2 fun _ _ => rfl
  refine ⟨List.nodup_nil, fun _ hn => (nomatch hn), fun _ => rfl, fun k m _ => ?_,
    fun k m _ i _ => ?_, ?_, fun k m hm => ?_⟩
  · exact (if_pos (.inl (h0 m))).symm
  · exact (if_pos (.inl rfl)).symm
  · refine (Finset.sum_eq_zero fun k _ => ?_).symm
    rw [busy]
    split
    · exact if_pos (.inl (h0 _))
    · rfl
  · exact (if_neg ((hfits m (List.mem_of_getElem? hm)).missing_ne hP)).symm

variable {res : Result Terminal}

variable {s : Terminal} {env : Env} {msg : Msg}

theorem messageArrive_statsArray {bf : Bf} {complete : Bool} {outs : List Out}
    (h : messageArrive p env s msg bf complete outs = some res) :
    res.state.dragonflyStatsArray = s.dragonflyStatsArray := by
  simp only [messageArrive, Option.ite_none_left_eq_some] at h
  obtain ⟨-, -, h⟩ := h
  split at h
  · obtain rfl := Option.some.inj h
    rfl
  · obtain ⟨-, h⟩ := Option.ite_none_left_eq_some.1 h
    obtain rfl := Option.some.inj h
    rfl

theorem packetArrive_statsArray (h : packetArrive p env self s msg = some res) :
    ∃ f, updateStats s.dragonflyStatsArray msg.category f =
      some res.state.dragonflyStatsArray := by
  simp only [packetArrive, Option.ite_none_left_eq_some, Option.bind_eq_some_iff] at h
  obtain ⟨-, k, -, stats, hstats, h⟩ := h
  suffices hstate : res.state.dragonflyStatsArray = stats from ⟨_, hstate ▸ hstats⟩
  split at h
  · obtain rfl := Option.some.inj h
    dsimp only
    split <;> rfl
  · exact messageArrive_statsArray h

/-- An event is counted under its category, and no other counters are touched. -/
theorem terminalEvent_statsArray (h : terminalEvent p t env self s msg = some res) :
    if msg.type = .tGenerate ∨ msg.type = .tArrive then
      ∃ f, updateStats s.dragonflyStatsArray msg.category f = some res.state.dragonflyStatsArray
    else res.state.dragonflyStatsArray = s.dragonflyStatsArray := by
  simp only [terminalEvent] at h
  split at h
  · rw [if_pos (.inl ‹_›)]
    simp only [packetGenerate, Option.ite_none_left_eq_some, Option.ite_none_right_eq_some,
      Option.bind_eq_some_iff, Option.map_eq_some_iff] at h
    obtain ⟨-, x, -, vcg, -, -, stats, hstats, rfl⟩ := h
    exact ⟨_, hstats⟩
  · rw [if_pos (.inr ‹_›)]
    obtain ⟨f, hf⟩ := packetArrive_statsArray h
    exact ⟨f, hf⟩
  · rw [if_neg (by simp [*])]
    obtain ⟨⟨next, c2, r', sv'⟩, -, h⟩ := Option.bind_eq_some_iff.1 h
    cases next with
    | none =>
      cases h
      rfl
    | some vcg =>
      simp only at h
      split at h
      · cases h
      · obtain ⟨next', -, rfl⟩ := Option.map_eq_some_iff.1 h
        rfl
  · rw [if_neg (by simp [*])]
    obtain ⟨vcg, -, rfl⟩ := Option.map_eq_some_iff.1 h
    rfl
  · rw [if_neg (by simp [*])]
    cases h
    rfl
  · rw [if_neg (by simp [*])]
    cases h
    rfl
  · cases h

/-- The counters have been given the names of the categories counted so far. -/
theorem Recv.run_register {as : List Arrival} {stats : StatsArray} (hnames :
    stats.SameNames r.term.dragonflyStatsArray) (h : (recvMachine p t self).run r as = some r') :
    ∃ stats', stats.register (as.filterMap Arrival.countedCategory) = some stats' ∧
      stats'.SameNames r'.term.dragonflyStatsArray := by
  induction as generalizing r stats with
  | nil =>
    cases h
    exact ⟨stats, rfl, hnames⟩
  | cons a as ih =>
    obtain ⟨r₁, hstep, hrun⟩ := Machine.run_cons_eq_some.1 h
    obtain ⟨res, hres, rfl⟩ := Option.map_eq_some_iff.1 hstep
    have hcount := terminalEvent_statsArray hres
    by_cases htype : a.msg.type = .tGenerate ∨ a.msg.type = .tArrive
    · rw [if_pos htype] at hcount
      obtain ⟨f, hf⟩ := hcount
      obtain ⟨i, hi, hupdate⟩ := updateStats_eq_some.1 hf
      have hi' : findStats stats a.msg.category = some i := (findStats_congr hnames).trans hi
      have hnames' : StatsArray.SameNames
          (update stats i { stats i with category := a.msg.category })
          res.state.dragonflyStatsArray := by
        rw [hupdate]
        exact hnames.update i rfl
      obtain ⟨stats', hreg, hlast⟩ := ih hnames' hrun
      refine ⟨stats', ?_, hlast⟩
      rw [List.filterMap_cons_some (b := a.msg.category) (by rw [Arrival.countedCategory,
        if_pos htype]), StatsArray.register_cons, updateStats, hi']
      exact hreg
    · rw [if_neg htype] at hcount
      rw [List.filterMap_cons_none (by rw [Arrival.countedCategory, if_neg htype])]
      exact ih (hcount ▸ hnames) hrun

theorem terminalEvent_tables
    (htype : msg.type ≠ .tArrive) (h : terminalEvent p t env self s msg = some res) :
    res.state.rankTbl = s.rankTbl ∧ res.state.rankTblPop = s.rankTblPop ∧
      res.state.remainingSzPackets = s.remainingSzPackets ∧ res.state.zombies = s.zombies := by
  simp only [terminalEvent] at h
  split at h
  · simp only [packetGenerate, Option.ite_none_left_eq_some, Option.ite_none_right_eq_some,
      Option.bind_eq_some_iff, Option.map_eq_some_iff] at h
    obtain ⟨-, x, -, vcg, -, -, stats, -, rfl⟩ := h
    exact ⟨rfl, rfl, rfl, rfl⟩
  · exact absurd ‹_› htype
  · obtain ⟨⟨next, c2, r', sv'⟩, -, h⟩ := Option.bind_eq_some_iff.1 h
    cases next with
    | none =>
      cases h
      exact ⟨rfl, rfl, rfl, rfl⟩
    | some vcg =>
      simp only at h
      split at h
      · cases h
      · obtain ⟨next', -, rfl⟩ := Option.map_eq_some_iff.1 h
        exact ⟨rfl, rfl, rfl, rfl⟩
  · obtain ⟨vcg, -, rfl⟩ := Option.map_eq_some_iff.1 h
    exact ⟨rfl, rfl, rfl, rfl⟩
  · cases h
    exact ⟨rfl, rfl, rfl, rfl⟩
  · cases h
    exact ⟨rfl, rfl, rfl, rfl⟩
  · cases h

theorem terminalEvent_arrive (h : msg.type = .tArrive) :
    terminalEvent p t env self s msg = packetArrive p env self s { msg with numRngs := 0 } := by
  unfold terminalEvent
  simp only [h]

theorem issuedFor_append (r : Recv) (s : Terminal) (done : List ChunkName) (k k' : ℕ)
    (outs : List Out) :
    Recv.issuedFor ⟨s, done, r.issued ++ outs.map fun out => (k', out)⟩ k =
      r.issuedFor k ++ if k' = k then outs else [] := by
  by_cases hk : k' = k <;> simp [Recv.issuedFor, List.filter_append, List.filter_map, hk,
    Function.comp_def]

theorem inProgress_cons {m : Message} (hm : ms[n.message]? = some m)
    (done : List ChunkName) : inProgress p ms (n :: done) +
      (if (m.entry p (arrivedOf done n.message)).isSome then 1 else 0) =
    inProgress p ms done +
      if (m.entry p (arrivedOf (n :: done) n.message)).isSome then 1 else 0 := by
  have hbusy : ∀ cnt, busy p ms n.message cnt = if (m.entry p cnt).isSome then 1 else 0 := by
    intro cnt
    rw [busy, hm, Message.entry]
    by_cases h : m.arrived p cnt = 0 ∨ m.missing p cnt = 0 <;> simp [h]
  have hlt : n.message < ms.length := (List.getElem?_eq_some_iff.1 hm).1
  rw [← hbusy, ← hbusy, inProgress, inProgress, arrivedOf_cons, update_self]
  exact LpSystem.sum_update (busy p ms) (arrivedOf done) (Finset.mem_range.2 hlt) _

theorem busy_le {m : Message} (hm : ms[n.message]? = some m)
    (done : List ChunkName) (h : (m.entry p (arrivedOf done n.message)).isSome) :
    1 ≤ inProgress p ms done := by
  have hlt : n.message < ms.length := (List.getElem?_eq_some_iff.1 hm).1
  have hbusy : busy p ms n.message (arrivedOf done n.message) = 1 := by
    rw [busy, hm]
    rw [Message.entry] at h
    split at h
    · cases h
    · exact if_neg ‹_›
  rw [← hbusy]
  exact Finset.single_le_sum (f := fun k => busy p ms k (arrivedOf done k))
    (fun _ _ => Nat.zero_le _) (Finset.mem_range.2 hlt)

variable (hP : 0 < p.packetSize) (hint : p.packetSize < 2 ^ 31) (hms : Sends p self ms)
  (hfits : ∀ m ∈ ms, m.Fits p)

include hP hint hms hfits

theorem Recv.Inv.arrive (hinv : Recv.Inv p ms r) (hname : a.name = some n)
    (hcategory : findStats r.term.dragonflyStatsArray a.msg.category ≠ none)
    (ha : StepOk p self ms r.arrived a) : ∃ m res, ms[n.message]? = some m ∧
      n ∉ r.arrived ∧ n.Valid p ms ∧ terminalEvent p t a.env self r.term a.msg = some res ∧
      res.state.rankTbl = update r.term.rankTbl m.rankKey
        (m.entry p (arrivedOf (n :: r.arrived) n.message)) ∧
      res.state.rankTblPop = inProgress p ms (n :: r.arrived) ∧
      res.state.remainingSzPackets = update r.term.remainingSzPackets
        (m.packetKey n.packet)
        (m.remaining p n.packet (arrivedOf (n :: r.arrived) n.message n.packet)) ∧
      res.state.zombies = r.term.zombies ∧
      remoteEvents res.outs =
        if m.missing p (arrivedOf (n :: r.arrived) n.message) = 0 then m.events else [] := by
  rw [StepOk, hname] at ha
  obtain ⟨m, hm, hpacket, hchunk, hnew, hmsg, hroom, hpull⟩ := ha
  have hvalid : n.Valid p ms := ⟨m, hm, hpacket, hchunk⟩
  have hmem := List.mem_of_getElem? hm
  have hcnt : arrivedOf (n :: r.arrived) n.message =
      update (arrivedOf r.arrived n.message) n.packet
        (arrivedOf r.arrived n.message n.packet + 1) := by
    rw [arrivedOf_cons, update_self]
  have hcons : (n :: r.arrived).Nodup := List.nodup_cons.2 ⟨hnew, hinv.nodup⟩
  have hvalid' : ∀ n' ∈ n :: r.arrived, n'.Valid p ms := List.forall_mem_cons.2 ⟨hvalid, hinv.valid⟩
  have hchunk' : m.IsChunk p self n.packet n.chunk { a.msg with numRngs := 0 } :=
    ⟨hmsg.type, hmsg.src, hmsg.info⟩
  have hspec := @packetArrive_spec p a.env m { a.msg with numRngs := 0 } n.packet n.chunk
    (arrivedOf r.arrived n.message) self r.term hP hint (hfits m hmem) hcategory hchunk'
    (hms.src_ne m hmem) hpacket
    (arrivedOf_lt hinv.valid hinv.nodup hnew hm hchunk)
    (fun i _ => arrivedOf_le hinv.valid hm hinv.nodup i) (hinv.zombies _)
    (hinv.remaining _ _ hm _ hpacket) (hinv.rankTbl _ _ hm) ?_ ?_
  · obtain ⟨res, hres, hrank, hpop, hrem, hzom, hevents⟩ := hspec
    rw [← hcnt] at hrank hpop hevents
    refine ⟨m, res, hm, hnew, hvalid, ?_, hrank, ?_, ?_, hzom, hevents⟩
    · rw [terminalEvent_arrive hmsg.type]
      exact hres
    · have hacc := inProgress_cons (p := p) hm r.arrived
      have hle := busy_le (p := p) hm r.arrived
      rw [hpop, hinv.pop]
      cases hold : (m.entry p (arrivedOf r.arrived n.message)).isSome <;>
        cases hnow : (m.entry p (arrivedOf (n :: r.arrived) n.message)).isSome <;>
        simp only [hold, hnow, Bool.false_eq_true, if_false, if_true, forall_const]
          at hacc hle ⊢ <;>
        omega
    · rw [hrem, hcnt, update_self]
  · -- a message that has no entry is new
    intro hnone
    rw [hinv.pop]
    refine hroom fun n' hn' heq => ?_
    obtain ⟨m', hm', hpacket', -⟩ := hinv.valid n' hn'
    rw [heq, hm] at hm'
    cases hm'
    have hpos : 0 < arrivedOf r.arrived n.message n'.packet :=
      List.countP_pos_iff.2 ⟨n', hn', by simp [heq]⟩
    rw [Message.entry, if_neg] at hnone
    · cases hnone
    rintro (h0 | h0)
    · have := Message.arrived_eq_zero.1 h0 n'.packet hpacket'
      omega
    · exact Message.missing_pos hpacket
        (arrivedOf_lt hinv.valid hinv.nodup hnew hm hchunk) h0
  · intro hp hmissing
    rw [← hcnt, missing_eq_zero_iff hvalid' hm hcons] at hmissing
    exact hpull hp hmissing

theorem Recv.Inv.step (hinv : Recv.Inv p ms r) (ha : StepOk p self ms r.arrived a)
    (h : (recvMachine p t self).step r a = some r') :
    Recv.Inv p ms r' ∧ r'.arrived = a.name.toList ++ r.arrived := by
  obtain ⟨res, hres, rfl⟩ := Option.map_eq_some_iff.1 h
  refine ⟨?_, rfl⟩
  cases hname : a.name with
  | none =>
    rw [StepOk, hname] at ha
    obtain ⟨hrank, hpop, hrem, hzom⟩ := terminalEvent_tables ha hres
    constructor
    · exact hinv.nodup
    · exact hinv.valid
    · exact fun key => (congrFun hzom key).trans (hinv.zombies key)
    · exact fun k m hm => (congrFun hrank _).trans (hinv.rankTbl k m hm)
    · exact fun k m hm i hi => (congrFun hrem _).trans (hinv.remaining k m hm i hi)
    · exact hpop.trans hinv.pop
    · intro k m hm
      refine Eq.trans ?_ (hinv.issued k m hm)
      simp [Recv.issuedFor]
  | some n =>
    have hcategory : findStats r.term.dragonflyStatsArray a.msg.category ≠ none := by
      rw [StepOk, hname] at ha
      obtain ⟨m, -, -, -, -, hmsg, -⟩ := ha
      have hcount := terminalEvent_statsArray hres
      rw [if_pos (.inr hmsg.type)] at hcount
      obtain ⟨f, hf⟩ := hcount
      obtain ⟨i, hi, -⟩ := updateStats_eq_some.1 hf
      exact Option.ne_none_iff_exists'.2 ⟨i, hi⟩
    obtain ⟨m, res', hm, hnew, hvalid, hres', hrank, hpop, hrem, hzom, hevents⟩ :=
      hinv.arrive (t := t) hP hint hms hfits hname hcategory ha
    rw [hres] at hres'
    cases hres'
    have hother : ∀ k, k ≠ n.message → arrivedOf (n :: r.arrived) k = arrivedOf r.arrived k :=
      fun k hk => by rw [arrivedOf_cons, update_of_ne hk]
    constructor
    · exact List.nodup_cons.2 ⟨hnew, hinv.nodup⟩
    · exact List.forall_mem_cons.2 ⟨hvalid, hinv.valid⟩
    · exact fun key => (congrFun hzom key).trans (hinv.zombies key)
    · intro k m' hm'
      rw [hrank]
      by_cases hk : k = n.message
      · subst hk
        rw [hm] at hm'
        cases hm'
        exact update_self ..
      · rw [update_of_ne fun hkey => hk (hms.rankKey_inj hm' hm hkey)]
        exact (hinv.rankTbl k m' hm').trans (congrArg _ (hother k hk).symm)
    · intro k m' hm' i hi
      rw [hrem]
      by_cases hki : k = n.message ∧ i = n.packet
      · obtain ⟨rfl, rfl⟩ := hki
        rw [hm] at hm'
        cases hm'
        exact update_self ..
      · obtain ⟨m₀, hm₀, hpacket, -⟩ := hvalid
        rw [hm] at hm₀
        cases hm₀
        rw [update_of_ne fun hkey => hki (hms.packetKey_inj hm' hm hi hpacket hkey),
          hinv.remaining k m' hm' i hi]
        have hcount : arrivedOf (n :: r.arrived) k i = arrivedOf r.arrived k i := by
          rw [arrivedOf, List.countP_cons_of_neg, arrivedOf]
          rw [decide_eq_true_eq]
          exact fun h => hki ⟨h.1.symm, h.2.symm⟩
        exact congrArg _ hcount.symm
    · exact hpop
    · intro k m' hm'
      have hissued := issuedFor_append r res.state (n :: r.arrived) k n.message
        (remoteEvents res.outs)
      simp only [Option.toList_some, List.flatMap_singleton, List.singleton_append]
      rw [hissued]
      by_cases hk : k = n.message
      · subst hk
        rw [hm] at hm'
        cases hm'
        obtain ⟨m₀, hm₀, hpacket, hchunk⟩ := hvalid
        rw [hm] at hm₀
        cases hm₀
        have hmissing := Message.missing_pos hpacket
          (arrivedOf_lt hinv.valid hinv.nodup hnew hm hchunk)
        rw [hinv.issued _ m hm, if_neg hmissing, if_pos rfl, List.nil_append, hevents]
        rfl
      · rw [if_neg (Ne.symm hk), List.append_nil, hinv.issued k m' hm', ← hother k hk]
        rfl

theorem Recv.Inv.run {as : List Arrival} (hinv : Recv.Inv p ms r)
    (has : Meets p self ms r.arrived as) (h : (recvMachine p t self).run r as = some r') :
    Recv.Inv p ms r' := by
  induction as generalizing r with
  | nil => cases h; exact hinv
  | cons a as ih =>
    obtain ⟨r₁, hstep, hrun⟩ := Machine.run_cons_eq_some.1 h
    obtain ⟨hinv₁, harr⟩ := hinv.step hP hint hms hfits has.1 hstep
    exact ih hinv₁ (harr ▸ has.2) hrun

end

/-- A network with packets of 96 bytes in chunks of 64. -/
def unevenParam : Param where
  numGroups := 1
  numRouters := 2
  numCn := 1
  numGlobalChannels := 0
  numParallelSwitchConns := 1
  numRails := 1
  numPlanes := 1
  numInjectionQueues := 1
  numQosLevels := 1
  chunkSize := 64
  packetSize := 96
  creditSize := 8
  msgSz := 1024
  cnVcSize := 128
  localVcSize := 128
  globalVcSize := 128
  qosBandwidths _ := 100
  cnBandwidth := 1
  localBandwidth := 1
  globalBandwidth := 1
  cnDelay := 1
  localDelay := 1
  globalDelay := 1
  routerDelay := 1
  cnCreditDelay := 1
  localCreditDelay := 1
  globalCreditDelay := 1
  railSelect := .congestion
  notifyLatency := false
  chunkSize_pos := by decide
  numQosLevels_pos := Nat.one_pos
  planes_eq := .inl rfl

/-- The same network with packets of 128 bytes. -/
def evenParam : Param := { unevenParam with packetSize := 128 }

/-- The two routers have a link and a terminal each. -/
def pairTopology (p : Param)
    (h : ∀ r, ConnMan.build p [⟨0, r, 1 - r, 0, false, 0, .connLocal⟩,
      ⟨1, r, r, 0, false, 0, .connTerminal⟩] = some ⟨1, 0, 1,
        [⟨0, r, 1 - r, 0, false, 0, .connLocal⟩, ⟨1, r, r, 0, false, 0, .connTerminal⟩]⟩) :
    Topology p where
  connMan r :=
    ⟨1, 0, 1, [⟨0, r, 1 - r, 0, false, 0, .connLocal⟩, ⟨1, r, r, 0, false, 0, .connTerminal⟩]⟩
  built r := ⟨_, h r⟩
  injection term := [⟨0, term, term, 0, false, 0, .connInjection⟩]
  linkFailures := false
  hasValidPath _ _ := true
  shortestDist _ _ := 0

/-- A message of 192 bytes with a payload, from terminal 0. -/
def message192 : Message where
  req := { (default : Request) with msgSize := 192, remoteEventSize := 1 }
  remoteEvent := [7]
  senderMnLp := 0
  src := 0
  packetId := id

/-- Chunk `j` of packet `i` of this message arrives at terminal 1. -/
def chunkOf192 (p : Param) (i j : ℕ) : Arrival where
  name := some ⟨0, i, j⟩
  env := ⟨1, default, fun _ => 0, fun _ => 0, fun _ => 0, false⟩
  msg :=
    let info := message192.chunkInfo p 1 i j
    { (default : Msg) with
      type := .tArrive
      srcTerminalId := .terminal 0
      intmLpId := .router 1
      category := info.category
      packetId := info.packetId
      messageId := info.messageId
      senderLp := info.senderLp
      senderMnLp := info.senderMnLp
      finalDestGid := info.finalDestGid
      dfdallySrcTerminalId := info.srcTerminal
      dfdallyDestTerminalId := info.destTerminal
      destTerminalLpid := info.destTerminalLpid
      totalSize := info.totalSize
      packetSize := info.packetSize
      remoteEvent := info.remoteEvent
      isPull := info.isPull
      pullSize := info.pullSize
      chunkId := info.chunkId }

end CodesSim.Dally
