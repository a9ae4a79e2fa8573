import Mathlib.Tactic.LinearCombination
import CodesSim.Dally.Arbitration

/-!
# The self-check of rollbacks

To find errors in the reverse handlers, the simulator can save the state of an LP before an event,
roll the event back and compare the two states.  This module has the functions that save and compare
terminals and routers, and what they find (`self_check_iff`).

A saved state passes the comparison, and a state in which a list of chunks has become longer or
shorter does not.  The table of messages is another matter: `check_rank_tbl` looks up each entry of
the table before in the table after, and compares the number of entries before with itself.  So
entries that are only in the table after go unnoticed (`checkRankTbl_iff`).

In surrogate mode, in which the state of the network is hidden, the lists of a terminal are neither
saved nor compared.
-/

namespace CodesSim.Dally

/-! ### The table of messages -/

/-- The hash table of a terminal with what has arrived of its messages (`rank_tbl`), by bucket.
`hash` is `dragonfly_hash_func`.  An entry is added only if there is none with its key. -/
structure RankTable (hash : RankKey → ℕ) where
  bucket : ℕ → List HashEntry
  hash_eq : ∀ i, ∀ e ∈ bucket i, hash e.key = i
  nodup : ∀ i, ((bucket i).map HashEntry.key).Nodup
  outside : ∀ i, hashTableSize ≤ i → bucket i = []

/-- `check_dfly_qhash_entry`. -/
def checkDflyQhashEntry (before after : HashEntry) : Bool :=
  !(before.key.senderId != after.key.senderId || before.key.messageId != after.key.messageId ||
    before.numChunks != after.numChunks || before.remainingPackets != after.remainingPackets)

/-- What the comparison of two entries looks at. -/
def HashEntry.checked (e : HashEntry) : RankKey × ℤ × ℤ := (e.key, e.numChunks, e.remainingPackets)

theorem checkDflyQhashEntry_iff {e e' : HashEntry} :
    checkDflyQhashEntry e e' = true ↔ e'.checked = e.checked := by
  obtain ⟨⟨m, s⟩, n, r, d⟩ := e
  obtain ⟨⟨m', s'⟩, n', r', d'⟩ := e'
  simp only [checkDflyQhashEntry, HashEntry.checked, Bool.not_eq_true', Bool.or_eq_false_iff,
    bne_eq_false_iff_eq, Prod.mk.injEq, RankKey.mk.injEq]
  constructor
  · rintro ⟨⟨⟨rfl, rfl⟩, rfl⟩, rfl⟩
    exact ⟨⟨rfl, rfl⟩, rfl, rfl⟩
  · rintro ⟨⟨rfl, rfl⟩, rfl, rfl⟩
    exact ⟨⟨⟨rfl, rfl⟩, rfl⟩, rfl⟩

namespace RankTable

variable {hash : RankKey → ℕ}

/-- All entries. -/
def entries (t : RankTable hash) : List HashEntry := (List.range hashTableSize).flatMap t.bucket

theorem mem_entries {t : RankTable hash} {e : HashEntry} :
    e ∈ t.entries ↔ e ∈ t.bucket (hash e.key) := by
  rw [entries, List.mem_flatMap]
  constructor
  · rintro ⟨i, -, he⟩
    rwa [t.hash_eq i e he]
  · intro he
    refine ⟨hash e.key, List.mem_range.2 ?_, he⟩
    by_contra hout
    rw [t.outside _ (Nat.le_of_not_lt hout)] at he
    cases he

theorem nodup_keys (t : RankTable hash) : (t.entries.map HashEntry.key).Nodup := by
  rw [entries, List.map_flatMap, List.nodup_flatMap]
  refine ⟨fun i _ => t.nodup i, List.nodup_range.imp fun {i j} hij => ?_⟩
  intro key hi hj
  obtain ⟨e, he, rfl⟩ := List.mem_map.1 hi
  obtain ⟨e', he', heq⟩ := List.mem_map.1 hj
  exact hij ((t.hash_eq i e he).symm.trans ((congrArg hash heq.symm).trans (t.hash_eq j e' he')))

theorem nodup_checked (t : RankTable hash) : (t.entries.map HashEntry.checked).Nodup := by
  have hkeys := t.nodup_keys
  rw [show HashEntry.key = Prod.fst ∘ HashEntry.checked from rfl, ← List.map_map] at hkeys
  exact hkeys.of_map _

/-- Two tables hold the same entries, as far as they are compared. -/
def SameEntries (before after : RankTable hash) : Prop :=
  (before.entries.map HashEntry.checked).Perm (after.entries.map HashEntry.checked)

/-- The table after has the entries of the table before and more of them. -/
def IsExtendedBy (before after : RankTable hash) : Prop :=
  ∃ extra ≠ [], (after.entries.map HashEntry.checked).Perm
    (before.entries.map HashEntry.checked ++ extra)

theorem isExtendedBy_iff {before after : RankTable hash} : before.IsExtendedBy after ↔
    before.entries.map HashEntry.checked ⊆ after.entries.map HashEntry.checked ∧
      ¬ before.SameEntries after := by
  constructor
  · rintro ⟨extra, hne, hperm⟩
    refine ⟨fun x hx => hperm.symm.subset (List.mem_append_left _ hx), fun hsame => hne ?_⟩
    have hlen := (hsame.trans hperm).length_eq
    rw [List.length_append] at hlen
    exact List.length_eq_zero_iff.1 (by omega)
  · rintro ⟨hsub, hne⟩
    obtain ⟨l, hl, hlsub⟩ := List.subperm_of_subset before.nodup_checked hsub
    obtain ⟨extra, hextra⟩ := hlsub.exists_perm_append
    refine ⟨extra, ?_, hextra.trans (hl.append_right extra)⟩
    rintro rfl
    rw [List.append_nil] at hextra
    exact hne (hl.symm.trans hextra.symm)

/-- A bucket of the copy: every entry is put in front. -/
def copyBucket (entries : List HashEntry) : List HashEntry :=
  entries.foldl (fun into e => e :: into) []

theorem copyBucket_eq (entries : List HashEntry) : copyBucket entries = entries.reverse :=
  List.foldl_flip_cons_eq_append'.trans (List.append_nil _)

/-- `copy_rank_tbl`, into an empty table. -/
def copy (t : RankTable hash) : RankTable hash where
  bucket i := copyBucket (t.bucket i)
  hash_eq i e he := t.hash_eq i e (List.mem_reverse.1 (copyBucket_eq _ ▸ he))
  nodup i := by
    rw [copyBucket_eq, List.map_reverse]
    exact List.nodup_reverse.2 (t.nodup i)
  outside i hi := by
    rw [t.outside i hi]
    rfl

theorem mem_entries_copy {t : RankTable hash} {e : HashEntry} :
    e ∈ t.copy.entries ↔ e ∈ t.entries := by
  rw [mem_entries, mem_entries]
  exact (iff_of_eq (congrArg _ (copyBucket_eq _))).trans List.mem_reverse

end RankTable

/-- `check_rank_tbl`. -/
def checkRankTbl {hash : RankKey → ℕ} (before after : RankTable hash) : Bool :=
  (List.range hashTableSize).all fun i =>
    -- the table after is not counted
    (before.bucket i).length == (before.bucket i).length &&
      (before.bucket i).all fun e => (after.bucket i).any (checkDflyQhashEntry e)

section

variable {hash : RankKey → ℕ} {before after : RankTable hash}

/-- **What `check_rank_tbl` finds out**: whether each entry of the table before is in the table
after. -/
theorem checkRankTbl_iff : checkRankTbl before after = true ↔
    ∀ e ∈ before.entries, ∃ e' ∈ after.entries, e'.checked = e.checked := by
  simp only [checkRankTbl, beq_self_eq_true, Bool.true_and, List.all_eq_true, List.mem_range,
    List.any_eq_true, checkDflyQhashEntry_iff]
  constructor
  · intro h e he
    rw [RankTable.mem_entries] at he
    have hlt : hash e.key < hashTableSize := by
      by_contra hout
      rw [before.outside _ (Nat.le_of_not_lt hout)] at he
      cases he
    obtain ⟨e', he', heq⟩ := h _ hlt e he
    refine ⟨e', RankTable.mem_entries.2 ?_, heq⟩
    rwa [after.hash_eq _ e' he']
  · intro h i _ e he
    have hi := before.hash_eq i e he
    obtain ⟨e', he', heq⟩ := h e (RankTable.mem_entries.2 (hi ▸ he))
    have hkey : e'.key = e.key := congrArg Prod.fst heq
    rw [RankTable.mem_entries, hkey, hi] at he'
    exact ⟨e', he', heq⟩

theorem checkRankTbl_iff_subset : checkRankTbl before after = true ↔
    before.entries.map HashEntry.checked ⊆ after.entries.map HashEntry.checked := by
  rw [checkRankTbl_iff]
  simp only [List.subset_def, List.mem_map, forall_exists_index, and_imp,
    forall_apply_eq_imp_iff₂]

/-- **When `check_rank_tbl` says whether the tables hold the same entries**: unless the table after
has those of the table before and more. -/
theorem checkRankTbl_sound_iff : (checkRankTbl before after = true ↔ before.SameEntries after) ↔
    ¬ before.IsExtendedBy after := by
  have hsame : before.SameEntries after → checkRankTbl before after = true :=
    fun h => checkRankTbl_iff_subset.2 h.subset
  rw [RankTable.isExtendedBy_iff, ← checkRankTbl_iff_subset]
  constructor
  · exact fun h hextended => hextended.2 (h.1 hextended.1)
  · exact fun h => ⟨fun hcheck => by_contra fun hne => h ⟨hcheck, hne⟩, hsame⟩

theorem checkRankTbl_self : checkRankTbl before before = true :=
  checkRankTbl_iff_subset.2 (List.Subset.refl _)

/-- **When `check_rank_tbl` does not depend on the order of the tables**: unless one of them has the
entries of the other and more. -/
theorem checkRankTbl_comm_iff : checkRankTbl before after = checkRankTbl after before ↔
    ¬ before.IsExtendedBy after ∧ ¬ after.IsExtendedBy before := by
  have hsame : before.SameEntries after →
      checkRankTbl before after = true ∧ checkRankTbl after before = true :=
    fun h => ⟨checkRankTbl_iff_subset.2 h.subset, checkRankTbl_iff_subset.2 h.symm.subset⟩
  have hboth : checkRankTbl before after = true → checkRankTbl after before = true →
      before.SameEntries after := fun hba hab =>
    (List.subperm_of_subset before.nodup_checked (checkRankTbl_iff_subset.1 hba)).antisymm
      (List.subperm_of_subset after.nodup_checked (checkRankTbl_iff_subset.1 hab))
  have hcomm : after.SameEntries before ↔ before.SameEntries after := ⟨.symm, .symm⟩
  rw [RankTable.isExtendedBy_iff, RankTable.isExtendedBy_iff, ← checkRankTbl_iff_subset,
    ← checkRankTbl_iff_subset, hcomm, Bool.eq_iff_iff]
  constructor
  · exact fun h => ⟨fun ⟨hba, hne⟩ => hne (hboth hba (h.1 hba)),
      fun ⟨hab, hne⟩ => hne (hboth (h.2 hab) hab)⟩
  · exact fun ⟨hba, hab⟩ => ⟨fun hcheck => (hsame (by_contra fun hne => hba ⟨hcheck, hne⟩)).2,
      fun hcheck => (hsame (by_contra fun hne => hab ⟨hcheck, hne⟩)).1⟩

theorem checkRankTbl_copy : checkRankTbl before before.copy = true :=
  checkRankTbl_iff.2 fun e he => ⟨e, RankTable.mem_entries_copy.2 he, rfl⟩

end

/-! ### Lists of chunks -/

/-- `check_terminal_dally_message`. -/
def checkTerminalDallyMessage (before after : Msg) : Bool :=
  before.travelStartTime == after.travelStartTime &&
  before.travelEndTime == after.travelEndTime &&
  before.packetId == after.packetId &&
  before.type == after.type &&
  before.category == after.category &&
  before.finalDestGid == after.finalDestGid &&
  before.senderLp == after.senderLp &&
  before.senderMnLp == after.senderMnLp &&
  before.destTerminalLpid == after.destTerminalLpid &&
  before.dfdallySrcTerminalId == after.dfdallySrcTerminalId &&
  before.dfdallyDestTerminalId == after.dfdallyDestTerminalId &&
  before.srcTerminalId == after.srcTerminalId &&
  before.originRouterId == after.originRouterId &&
  before.myNHop == after.myNHop &&
  before.myLHop == after.myLHop &&
  before.myGHop == after.myGHop &&
  before.myHopsCurGroup == after.myHopsCurGroup &&
  before.nextStop == after.nextStop &&
  before.thisRouterArrival == after.thisRouterArrival &&
  before.intmLpId == after.intmLpId &&
  before.lastHop == after.lastHop &&
  before.isIntmVisited == after.isIntmVisited &&
  before.intmGrpId == after.intmGrpId &&
  before.chunkId == after.chunkId &&
  before.packetSize == after.packetSize &&
  before.messageId == after.messageId &&
  before.totalSize == after.totalSize &&
  before.remoteEvent.length == after.remoteEvent.length &&
  before.localEvent.length == after.localEvent.length &&
  before.vcIndex == after.vcIndex &&
  before.railId == after.railId &&
  before.outputChan == after.outputChan &&
  before.isPull == after.isPull &&
  before.pullSize == after.pullSize &&
  before.pathType == after.pathType &&
  before.saved.qosReset1 == after.saved.qosReset1 &&
  before.saved.qosReset2 == after.saved.qosReset2

theorem checkTerminalDallyMessage_self (c : Msg) : checkTerminalDallyMessage c c = true := by
  simp only [checkTerminalDallyMessage, beq_self_eq_true, Bool.and_self]

/-- Two lists, entry by entry. -/
def checkQlist (same : Msg → Msg → Bool) : List Msg → List Msg → Bool
  | [], [] => true
  | before :: befores, after :: afters => same before after && checkQlist same befores afters
  | _, _ => false

theorem checkQlist_length {same : Msg → Msg → Bool} {before after : List Msg}
    (h : checkQlist same before after = true) : before.length = after.length := by
  induction before generalizing after with
  | nil => cases after with
    | nil => rfl
    | cons c after => cases h
  | cons c before ih => cases after with
    | nil => cases h
    | cons d after =>
      rw [checkQlist, Bool.and_eq_true] at h
      rw [List.length_cons, List.length_cons, ih h.2]

theorem checkQlist_map_iff {same : Msg → Msg → Bool} {f : Msg → Msg} {l : List Msg} :
    checkQlist same l (l.map f) = true ↔ ∀ c ∈ l, same c (f c) = true := by
  induction l with
  | nil => simp [checkQlist]
  | cons c l ih => simp [checkQlist, ih]

/-- What a terminal keeps behind a chunk. -/
def Msg.eventData (c : Msg) : List UInt8 := c.remoteEvent ++ c.localEvent

/-- Two chunks in `check_terminal_dally_message_qlist`. -/
def checkTermChunk (before after : Msg) : Bool :=
  checkTerminalDallyMessage before after &&
    (before.eventData.isEmpty == after.eventData.isEmpty &&
      (before.eventData.isEmpty || after.eventData.isEmpty ||
        before.eventData == after.eventData))

/-- `check_terminal_dally_message_qlist`. -/
def checkTerminalDallyMessageQlist : List Msg → List Msg → Bool := checkQlist checkTermChunk

/-- `copy_terminal_dally_message_qlist`, into an empty list. -/
def copyTerminalDallyMessageQlist (l : List Msg) : List Msg :=
  l.foldl (fun into c => into ++ [c]) []

/-- Two chunks in `check_msgs_qlist`.  A router keeps only the remote event behind a chunk, but as
many bytes are compared as both events have. -/
def checkRtrChunk (before after : Msg) : Bool :=
  checkTerminalDallyMessage before after &&
    (before.remoteEvent.isEmpty == after.remoteEvent.isEmpty &&
      (before.eventData.length == after.eventData.length &&
        (before.remoteEvent.isEmpty || before.eventData == after.eventData)))

/-- `check_msgs_qlist`. -/
def checkMsgsQlist : List Msg → List Msg → Bool := checkQlist checkRtrChunk

/-- A chunk in `copy_msgs_qlist`: only the remote event is copied.  `behind` is what follows its
copy. -/
def copyRtrChunk (behind : ℕ → UInt8) (c : Msg) : Msg :=
  { c with localEvent := (List.range c.localEvent.length).map behind }

/-- `copy_msgs_qlist`. -/
def copyMsgsQlist (behind : ℕ → UInt8) (l : List Msg) : List Msg :=
  l.foldl (fun into c => into ++ [copyRtrChunk behind c]) []

theorem foldl_append_singleton (f : Msg → Msg) (l into : List Msg) :
    l.foldl (fun into c => into ++ [f c]) into = into ++ l.map f := by
  induction l generalizing into with
  | nil => simp
  | cons c l ih => rw [List.foldl_cons, ih, List.map_cons, List.append_assoc, List.singleton_append]

theorem copyTerminalDallyMessageQlist_eq (l : List Msg) : copyTerminalDallyMessageQlist l = l :=
  (foldl_append_singleton id l []).trans (List.map_id l)

theorem copyMsgsQlist_eq (behind : ℕ → UInt8) (l : List Msg) :
    copyMsgsQlist behind l = l.map (copyRtrChunk behind) := by
  rw [copyMsgsQlist, foldl_append_singleton, List.nil_append]

theorem checkTerminalDallyMessageQlist_self (l : List Msg) :
    checkTerminalDallyMessageQlist l l = true := by
  have h : checkQlist checkTermChunk l (l.map id) = true ↔ ∀ c ∈ l,
    checkTermChunk c (id c) = true :=
    checkQlist_map_iff
  rw [List.map_id] at h
  refine h.2 fun c _ => ?_
  simp only [checkTermChunk, id_eq, checkTerminalDallyMessage_self, beq_self_eq_true, Bool.or_true,
    Bool.and_self]

theorem checkRtrChunk_copy_iff (c : Msg) :
    (∀ behind, checkRtrChunk c (copyRtrChunk behind c) = true) ↔
    (c.remoteEvent ≠ [] → c.localEvent = []) := by
  have hmsg : ∀ behind, checkTerminalDallyMessage c (copyRtrChunk behind c) = true := by
    intro behind
    simp only [checkTerminalDallyMessage, copyRtrChunk, List.length_map, List.length_range,
      beq_self_eq_true, Bool.and_self]
  have hcheck : ∀ behind, checkRtrChunk c (copyRtrChunk behind c) = true ↔
      (c.remoteEvent = [] ∨ c.localEvent = (List.range c.localEvent.length).map behind) := by
    intro behind
    rw [checkRtrChunk, hmsg]
    simp [copyRtrChunk, Msg.eventData]
  simp only [hcheck]
  constructor
  · intro h hremote
    by_contra hlocal
    obtain ⟨b, rest, hcons⟩ := List.exists_cons_of_ne_nil hlocal
    -- any other byte may follow
    have hne := (h fun _ => b + 1).resolve_left hremote
    rw [hcons, List.length_cons, List.range_succ_eq_map, List.map_cons, List.cons.injEq] at hne
    exact absurd (UInt8.left_eq_add.1 hne.1) (by decide)
  · intro h behind
    by_cases hremote : c.remoteEvent = []
    · exact .inl hremote
    · exact .inr (by rw [h hremote]; rfl)

/-! ### Terminals -/

/-- The containers of a terminal; the map and the set are in the order of their keys. -/
structure TermTables (hash : RankKey → ℕ) where
  rankTbl : RankTable hash
  remainingSzPackets : List (PacketKey × ℕ)
  zombies : List PacketKey

/-- The part of `save_terminal_state` about a rail. -/
def Rail.save (p : Param) (r : Rail) : Rail :=
  { r with
    terminalMsgs := fun j => if j < p.numQosLevels then
        copyTerminalDallyMessageQlist (r.terminalMsgs j)
      else r.terminalMsgs j }

/-- `save_terminal_state`. -/
def saveTerminalState (p : Param) (surrogateOn : Bool) {hash : RankKey → ℕ} (s : Terminal)
    (t : TermTables hash) : Terminal × TermTables hash :=
  ({ s with
      rails := fun i => if !surrogateOn ∧ i < p.numRails then (s.rails i).save p else s.rails i },
    { t with rankTbl := t.rankTbl.copy })

/-- The part of `check_terminal_state` about a rail. -/
def checkRail (p : Param) (before after : Rail) : Bool :=
  ((List.range p.numQosLevels).all fun j =>
    before.vcOccupancy j == after.vcOccupancy j &&
    before.terminalLength j == after.terminalLength j &&
    before.qosStatus j == after.qosStatus j &&
    before.qosData j == after.qosData j &&
    checkTerminalDallyMessageQlist (before.terminalMsgs j) (after.terminalMsgs j)) &&
  (before.lastBufFull == after.lastBufFull &&
    before.inSendLoop == after.inSendLoop &&
    before.issueIdle == after.issueIdle &&
    before.lastQosLvl == after.lastQosLvl &&
    before.terminalAvailableTime == after.terminalAvailableTime &&
    before.stalledChunks == after.stalledChunks &&
    before.totalChunks == after.totalChunks &&
    before.busyTime == after.busyTime &&
    before.linkTraffic == after.linkTraffic)

/-- `check_terminal_state`.  All counters are compared. -/
def checkTerminalState (p : Param) (surrogateOn : Bool) {hash : RankKey → ℕ}
    (before after : Terminal × TermTables hash) : Bool :=
  before.1.packetCounter == after.1.packetCounter &&
  before.1.stats == after.1.stats &&
  before.1.isMonitoringBw == after.1.isMonitoringBw &&
  before.1.rankTblPop == after.1.rankTblPop &&
  before.1.lastInQueueTime == after.1.lastInQueueTime &&
  (surrogateOn ||
    (List.range p.numRails).all fun i => checkRail p (before.1.rails i) (after.1.rails i)) &&
  checkRankTbl before.2.rankTbl after.2.rankTbl &&
  before.2.remainingSzPackets == after.2.remainingSzPackets &&
  before.2.zombies == after.2.zombies

/-- A list of chunks of a terminal has become longer or shorter. -/
def TermListChanged (p : Param) (before after : Terminal) : Prop :=
  ∃ rail < p.numRails, ∃ lvl < p.numQosLevels,
    ((before.rails rail).terminalMsgs lvl).length ≠ ((after.rails rail).terminalMsgs lvl).length

section

variable {p : Param} {hash : RankKey → ℕ}

theorem checkRail_save (p : Param) (r : Rail) : checkRail p r (r.save p) = true := by
  simp only [checkRail, Rail.save, beq_self_eq_true, Bool.and_self, Bool.and_true, Bool.true_and,
    List.all_eq_true, List.mem_range]
  intro j hj
  rw [if_pos hj, copyTerminalDallyMessageQlist_eq]
  exact checkTerminalDallyMessageQlist_self _

/-- **A saved terminal passes.** -/
theorem checkTerminalState_save (surrogateOn : Bool) (s : Terminal) (t : TermTables hash) :
    checkTerminalState p surrogateOn (s, t) (saveTerminalState p surrogateOn s t) = true := by
  simp only [checkTerminalState, saveTerminalState, beq_self_eq_true, Bool.and_true, Bool.true_and,
    checkRankTbl_copy, Bool.or_eq_true, List.all_eq_true, List.mem_range]
  cases surrogateOn with
  | true => exact .inl rfl
  | false =>
    refine .inr fun i hi => ?_
    rw [if_pos ⟨rfl, hi⟩]
    exact checkRail_save p _

/-- **A terminal with a list that has changed its length does not pass**, except in surrogate
mode. -/
theorem checkTerminalState_listChanged {before after : Terminal × TermTables hash}
    (h : TermListChanged p before.1 after.1) : checkTerminalState p false before after = false := by
  obtain ⟨rail, hrail, lvl, hlvl, hne⟩ := h
  by_contra hcheck
  simp only [checkTerminalState, checkRail, Bool.false_or, Bool.not_eq_false, Bool.and_eq_true,
    List.all_eq_true, List.mem_range] at hcheck
  have hlist := ((hcheck.1.1.1.2 rail hrail).1 lvl hlvl).2
  exact hne (checkQlist_length hlist)

/-- The tables of a terminal that has received nothing. -/
def TermTables.empty (hash : RankKey → ℕ) : TermTables hash where
  rankTbl := ⟨fun _ => [], fun _ _ he => (nomatch he), fun _ => List.nodup_nil, fun _ _ => rfl⟩
  remainingSzPackets := []
  zombies := []

/-- **When a terminal is compared list by list**: outside surrogate mode. -/
theorem checkTerminalState_listChanged_iff (surrogateOn : Bool) :
    (∀ before after : Terminal × TermTables hash, TermListChanged p before.1 after.1 →
      checkTerminalState p surrogateOn before after = false) ↔
    (surrogateOn = true → p.numRails = 0) := by
  constructor
  · intro h hon
    by_contra hrails
    let rail : Rail := { Rail.init with terminalMsgs := fun _ => [default] }
    have hpass := h (Terminal.init, .empty hash)
      ({ Terminal.init with rails := fun _ => rail }, .empty hash)
      ⟨0, Nat.pos_of_ne_zero hrails, 0, p.numQosLevels_pos, by exact nofun⟩
    rw [hon] at hpass
    have hcopy : checkRankTbl (TermTables.empty hash).rankTbl (TermTables.empty hash).rankTbl =
      true :=
      checkRankTbl_copy
    simp [checkTerminalState, hcopy] at hpass
  · intro h before after hchanged
    cases surrogateOn with
    | false => exact checkTerminalState_listChanged hchanged
    | true =>
      obtain ⟨rail, hrail, -⟩ := hchanged
      exact absurd (h rfl) (Nat.ne_of_gt (Nat.zero_lt_of_lt hrail))

end

/-! ### Routers -/

/-- The part of `save_router_state` about a port. -/
def Port.save (p : Param) (behind : ℕ → UInt8) (x : Port) : Port :=
  { x with
    pendingMsgs := fun k => if k < p.numVcs then copyMsgsQlist behind (x.pendingMsgs k)
      else x.pendingMsgs k
    queuedMsgs := fun k => if k < p.numVcs then copyMsgsQlist behind (x.queuedMsgs k)
      else x.queuedMsgs k }

/-- `save_router_state`. -/
def saveRouterState (p : Param) (behind : ℕ → UInt8) (s : Router) : Router :=
  { s with ports := fun i => if i < p.radix then (s.ports i).save p behind else s.ports i }

/-- The part of `check_router_state` about a port. -/
def checkPort (p : Param) (before after : Port) : Bool :=
  (before.nextOutputAvailableTime == after.nextOutputAvailableTime &&
    before.lastBufFull == after.lastBufFull &&
    before.busyTime == after.busyTime &&
    before.stalledChunks == after.stalledChunks &&
    before.totalChunks == after.totalChunks &&
    before.inSendLoop == after.inSendLoop &&
    before.queuedCount == after.queuedCount &&
    before.linkTraffic == after.linkTraffic &&
    before.lastQosLvl == after.lastQosLvl) &&
  ((List.range p.numVcs).all fun k =>
    before.vcOccupancy k == after.vcOccupancy k &&
    checkMsgsQlist (before.pendingMsgs k) (after.pendingMsgs k) &&
    checkMsgsQlist (before.queuedMsgs k) (after.queuedMsgs k)) &&
  ((List.range p.numQosLevels).all fun lvl =>
    before.qosStatus lvl == after.qosStatus lvl &&
    before.qosData lvl == after.qosData lvl)

/-- `check_router_state`. -/
def checkRouterState (p : Param) (before after : Router) : Bool :=
  before.isMonitoringBw == after.isMonitoringBw &&
  before.lastTime == after.lastTime &&
  (List.range p.radix).all fun i => checkPort p (before.ports i) (after.ports i)

/-- A list of chunks of a router has become longer or shorter. -/
def RtrListChanged (p : Param) (before after : Router) : Prop :=
  ∃ port < p.radix, ∃ k < p.numVcs,
    ((before.ports port).pendingMsgs k).length ≠ ((after.ports port).pendingMsgs k).length ∨
    ((before.ports port).queuedMsgs k).length ≠ ((after.ports port).queuedMsgs k).length

/-- No chunk in the router has both events behind it. -/
def Router.OneEvent (p : Param) (s : Router) : Prop :=
  ∀ port < p.radix, ∀ k < p.numVcs,
    ∀ c ∈ (s.ports port).pendingMsgs k ++ (s.ports port).queuedMsgs k,
      c.remoteEvent ≠ [] → c.localEvent = []

section

variable {p : Param}

theorem checkPort_save_iff (x : Port) (behind : ℕ → UInt8) :
    checkPort p x (x.save p behind) = true ↔ ∀ k < p.numVcs,
      ∀ c ∈ x.pendingMsgs k ++ x.queuedMsgs k, checkRtrChunk c (copyRtrChunk behind c) = true := by
  simp only [checkPort, Port.save, beq_self_eq_true, Bool.and_self, Bool.true_and,
    List.all_eq_true, List.mem_range, implies_true, Bool.and_eq_true, and_true,
    List.forall_mem_append]
  refine forall₂_congr fun k hk => ?_
  rw [if_pos hk, if_pos hk, copyMsgsQlist_eq, copyMsgsQlist_eq, checkMsgsQlist, checkQlist_map_iff,
    checkQlist_map_iff]

theorem checkRouterState_save_iff (s : Router) :
    (∀ behind, checkRouterState p s (saveRouterState p behind s) = true) ↔ s.OneEvent p := by
  have hports : ∀ behind, checkRouterState p s (saveRouterState p behind s) = true ↔
      ∀ port < p.radix, checkPort p (s.ports port) ((s.ports port).save p behind) = true := by
    intro behind
    simp only [checkRouterState, saveRouterState, beq_self_eq_true, Bool.and_self, Bool.true_and,
      List.all_eq_true, List.mem_range]
    refine forall₂_congr fun port hport => ?_
    rw [if_pos hport]
  simp only [hports, checkPort_save_iff]
  constructor
  · intro h port hport k hk c hc
    exact (checkRtrChunk_copy_iff c).1 fun behind => h behind port hport k hk c hc
  · intro h behind port hport k hk c hc
    exact (checkRtrChunk_copy_iff c).2 (h port hport k hk c hc) behind

/-- **A router with a list that has changed its length does not pass.** -/
theorem checkRouterState_listChanged {before after : Router} (h : RtrListChanged p before after) :
    checkRouterState p before after = false := by
  obtain ⟨port, hport, k, hk, hne⟩ := h
  by_contra hcheck
  simp only [checkRouterState, checkPort, Bool.not_eq_false, Bool.and_eq_true, List.all_eq_true,
    List.mem_range] at hcheck
  have hlists := ((hcheck.2 port hport).1.2 k hk)
  rcases hne with hpending | hqueued
  · exact hpending (checkQlist_length hlists.1.2)
  · exact hqueued (checkQlist_length hlists.2)

end

/-! ### What the self-check finds out -/

/-- **What the self-check finds out**: of the tables of messages, whether they are the same, unless
the table after has the entries of the table before and more; of terminals and routers, whether a
list has changed its length. -/
theorem self_check_iff (p : Param) (hash : RankKey → ℕ) :
    (∀ before after : RankTable hash,
      ((checkRankTbl before after = true ↔ before.SameEntries after) ↔
        ¬ before.IsExtendedBy after) ∧
      (checkRankTbl before after = checkRankTbl after before ↔
        ¬ before.IsExtendedBy after ∧ ¬ after.IsExtendedBy before) ∧
      checkRankTbl before before = true) ∧
    (∀ (surrogateOn : Bool) (s : Terminal) (t : TermTables hash),
      checkTerminalState p surrogateOn (s, t) (saveTerminalState p surrogateOn s t) = true) ∧
    (∀ s : Router, (∀ behind, checkRouterState p s (saveRouterState p behind s) = true) ↔
      s.OneEvent p) ∧
    (∀ surrogateOn : Bool,
      (∀ before after : Terminal × TermTables hash, TermListChanged p before.1 after.1 →
        checkTerminalState p surrogateOn before after = false) ↔
      (surrogateOn = true → p.numRails = 0)) ∧
    ∀ before after : Router, RtrListChanged p before after →
      checkRouterState p before after = false :=
  ⟨fun _ _ => ⟨checkRankTbl_sound_iff, checkRankTbl_comm_iff, checkRankTbl_self⟩,
    checkTerminalState_save, checkRouterState_save_iff, checkTerminalState_listChanged_iff,
    fun _ _ => checkRouterState_listChanged⟩

/-- A table with one entry. -/
def oneEntry : RankTable fun _ => 0 where
  bucket i := if i = 0 then [⟨⟨1, 0⟩, 1, 0, []⟩] else []
  hash_eq i e he := by
    split at he
    · exact Eq.symm ‹_›
    · cases he
  nodup i := by
    split
    · exact List.nodup_singleton _
    · exact List.nodup_nil
  outside i hi := if_neg (Nat.ne_of_gt (Nat.zero_lt_of_lt hi))

/-- An entry that is only in the table after goes unnoticed. -/
theorem new_entry_unnoticed :
    checkRankTbl (TermTables.empty fun _ => 0).rankTbl oneEntry = true ∧
      checkRankTbl oneEntry (TermTables.empty fun _ => 0).rankTbl = false ∧
      ¬ (TermTables.empty fun _ => 0).rankTbl.SameEntries oneEntry := by
  have hempty : (TermTables.empty fun _ => 0).rankTbl.entries = [] :=
    List.flatMap_eq_nil_iff.2 fun _ _ => rfl
  have hone : ⟨⟨1, 0⟩, 1, 0, []⟩ ∈ oneEntry.entries :=
    RankTable.mem_entries.2 (List.mem_singleton_self _)
  refine ⟨checkRankTbl_iff.2 fun e he => ?_, ?_, fun hsame => ?_⟩
  · rw [hempty] at he
    cases he
  · refine Bool.eq_false_iff.2 fun hcheck => ?_
    obtain ⟨e, he, -⟩ := checkRankTbl_iff.1 hcheck _ hone
    rw [hempty] at he
    cases he
  · rw [RankTable.SameEntries, hempty, List.map_nil] at hsame
    rw [List.map_eq_nil_iff.1 hsame.symm.eq_nil] at hone
    cases hone

end CodesSim.Dally
