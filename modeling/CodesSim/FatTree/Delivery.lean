import CodesSim.FatTree.Loops
import CodesSim.Mesh.Delivery

/-!
# Messages of a fat tree are put together again

`packetArrive` keeps a desk, as that of an express mesh does, but it converts the number of chunks
it expects to an `int`, and it stops the simulation when the table is full.

`finishes_once_iff` is the result for both networks.
-/

namespace CodesSim

open Assembly Function

namespace FatTree

/-! ### From the request to the chunks -/

def Msg.info (msg : Msg) : ChunkInfo where
  category := msg.category
  finalDestGid := msg.finalDestGid
  senderLp := msg.senderLp
  senderMnLp := msg.senderMnLp
  destTerminal := msg.destTerminalId
  messageId := msg.messageId
  totalSize := msg.totalSize
  packetSize := msg.packetSize
  chunkId := msg.chunkId
  isPull := msg.isPull
  pullSize := msg.pullSize
  msgStartTime := msg.msgStartTime
  remoteEvent := msg.remoteEvent

variable (p : Param) (n : ℕ)

/-- The chunks of a packet of a message to terminal `n`, as a terminal in state `s` makes them. -/
def packetChunks (env : Env) (s : Terminal) (m : Message) (pk : Packet) : List Msg :=
  chunksOf p (generatedMsg p s (packetEvent env m.senderMnLp n m.req (.ofNat pk.size)
    (some m.remoteEvent) (some m.selfEvent) pk.isLast))

/-- The chunks of a message to terminal `n`; its packets are generated in the surroundings and the
states `gen`. -/
def sentChunks (gen : Packet → Env × Terminal) (m : Message) : List Msg :=
  m.req.packets.flatMap fun pk => packetChunks p n (gen pk).1 (gen pk).2 m pk

/-- The number of chunks that a message is sent in. -/
def numSent (m : Message) : ℕ := (m.req.packets.map fun pk => numChunks pk.size p.chunkSize).sum

section

variable {p n} {env : Env} {s : Terminal} {m : Message} {pk : Packet} {c : Msg}

theorem length_packetChunks (hpk : pk ∈ m.req.packets) :
    (packetChunks p n env s m pk).length = numChunks pk.size p.chunkSize := by
  have hsize : (UInt64.ofNat pk.size).toNat = pk.size :=
    UInt64.toNat_ofNat_of_lt (m.packet_size_lt hpk)
  simp [packetChunks, chunksOf, generatedMsg, packetEvent, hsize]

theorem isChunk_of_mem_packetChunks (hc : c ∈ packetChunks p n env s m pk) :
    m.IsChunk n c.info ∧ c.info.remoteEvent = if pk.isLast then m.remoteEvent else [] := by
  obtain ⟨j, -, rfl⟩ := List.mem_map.1 hc
  have hremote := m.packet_remoteEvent pk.isLast
  refine ⟨⟨rfl, rfl, rfl, rfl, rfl, rfl, rfl, rfl, ?_⟩, hremote⟩
  refine (em (pk.isLast = true)).elim (fun h => .inr ?_) (fun h => .inl ?_)
  · exact hremote.trans (if_pos h)
  · exact hremote.trans (if_neg h)

/-- **What `packet_generate` makes of a message.** -/
theorem isCut_sentChunks (gen : Packet → Env × Terminal) (m : Message) :
    m.IsCut n (numSent p m) ((sentChunks p n gen m).map Msg.info) := by
  rw [sentChunks, List.map_flatMap]
  refine m.isCut_flatMap (fun size => one_le_numChunks size p.chunkSize) (fun pk hpk => ?_)
    fun pk i hi => ?_
  · rw [List.length_map, length_packetChunks hpk]
  · obtain ⟨c, hc, rfl⟩ := List.mem_map.1 hi
    exact isChunk_of_mem_packetChunks hc

end

/-! ### The receiver -/

/-- A chunk arrives. -/
structure Arrival where
  env : Env
  msg : Msg

def Arrival.info (a : Arrival) : ChunkInfo := a.msg.info

/-- What a chunk that completes a pull is answered with. -/
def Arrival.replyData (a : Arrival) (len : ℕ) : List UInt8 :=
  (a.msg.remoteEvent ++ a.msg.localEvent ++ (List.range len).map a.env.behind).take len

/-- The remote events among what a handler sends. -/
def remoteEvents (outs : List Out) : List RemoteEvent :=
  outs.filterMap fun
    | .server dest _ data => some (.push dest data)
    | .pull destMnLp finalDest size startTime _ data =>
      some (.reply destMnLp finalDest size startTime data)
    | _ => none

/-- Terminal `n` as a receiver. -/
def receiver (t : Topology) : Receiver Terminal Arrival MsgKey UInt8 RemoteEvent where
  step s a := (packetArrive p a.env n t s a.msg).map fun r => (r.state, remoteEvents r.outs)
  table s k :=
    (s.rankTbl ⟨k.messageId, k.senderId⟩).map fun e => ⟨e.numChunks, e.remoteEventData⟩
  finished s := s.finishedMsgs
  bytes s := s.totalMsgSize

section

variable (t : Topology) (s : Terminal)

@[simp] theorem receiver_table (k : MsgKey) : (receiver p n t).table s k =
    (s.rankTbl ⟨k.messageId, k.senderId⟩).map fun e => ⟨e.numChunks, e.remoteEventData⟩ := rfl

@[simp] theorem receiver_finished : (receiver p n t).finished s = s.finishedMsgs := rfl

@[simp] theorem receiver_bytes : (receiver p n t).bytes s = s.totalMsgSize := rfl

end

/-- The number of chunks that is expected of a message of some size. -/
def expected (size : ℕ) : ℤ := toInt (numChunks size p.chunkSize)

/-- The chunks `as` that arrive at terminal `n` are those of the messages `ms`, in any order. -/
def IsOrder (ms : Messages) (as : List Arrival) : Prop :=
  ∃ gen : Message → Packet → Env × Terminal, (as.map Arrival.info).Perm
    (ms.list.flatMap fun m => (sentChunks p n (gen m) m).map Msg.info)

/-- Messages of which some chunks have arrived and some have not when the chunks `pre` of `as` are
there. -/
def numUnderWay (ms : Messages) (as pre : List Arrival) : ℕ :=
  ms.list.countP fun m => (chunkLabels Arrival.info (expected p)).UnderWay as pre m.key

/-- The table has room whenever the first chunk of a message arrives. -/
def TableRoom (ms : Messages) (as pre : List Arrival) : Prop :=
  ∀ pre' a suf, pre = pre' ++ a :: suf →
    (chunkLabels Arrival.info (expected p)).partsOf a.info.key pre' = [] →
      numUnderWay p ms as pre' + 1 < hashTableSize

section

variable {p n} {t : Topology} {s : Terminal} {a : Arrival} {as : List Arrival} {ms : Messages}

theorem entry_receiver (expected : ℕ → ℤ) :
    (receiver p n t).entry (chunkLabels Arrival.info expected) s a =
      ⟨(arrivedEntry s a.msg).numChunks, (arrivedEntry s a.msg).remoteEventData⟩ :=
  HashEntry.entry_add _ _

theorem keepsDesk : (receiver p n t).KeepsDesk (chunkLabels Arrival.info (expected p))
    (emitFor Arrival.info Arrival.replyData) fun a => a.info.totalSize := by
  intro s a s' issued hstep
  obtain ⟨r, hr, h⟩ := Option.map_eq_some_iff.1 hstep
  cases h
  simp only [packetArrive, Option.ite_none_left_eq_some, Option.bind_eq_some_iff,
    Option.map_eq_some_iff] at hr
  obtain ⟨-, i, -, stats, -, rfl⟩ := hr
  have hentry := entry_receiver (p := p) (n := n) (t := t) (s := s) (a := a) (expected p)
  have hdone : (receiver p n t).Completes (chunkLabels Arrival.info (expected p)) s a ↔
      Completes p s a.msg := by
    have hexpected : (chunkLabels Arrival.info (expected p)).expected a =
        toInt (numChunks a.msg.totalSize p.chunkSize) := by
      simp only [chunkLabels, expected, Arrival.info, Msg.info]
    rw [Receiver.Completes, hentry, hexpected, Completes]
  constructor
  · intro k
    have hkey : (⟨k.messageId, k.senderId⟩ : RankKey) = a.msg.key ↔ k = a.info.key := by
      obtain ⟨id, sender⟩ := k
      simp [Msg.key, Arrival.info, Msg.info, ChunkInfo.key]
    simp only [receiver_table, update_apply, chunkLabels_key, hkey, hentry, hdone]
    by_cases hk : k = a.info.key <;> by_cases hc : Completes p s a.msg <;> simp [hk, hc]
  · simp [hdone]
  · simp [hdone, Arrival.info, Msg.info]
  · by_cases hc : Completes p s a.msg <;>
      by_cases hdata : (arrivedEntry s a.msg).remoteEventData = [] <;>
      by_cases hpull : a.msg.isPull = true <;>
      simp [Delivers, remoteEvents, arrivalCredit, sendRemoteEvent, emitFor, Arrival.replyData,
        Arrival.info, Msg.info, hentry, hdone, hc, hdata, hpull]

theorem packetArrive_eq_some {i : ℕ}
    (hfull : ¬ (s.rankTbl a.msg.key = none ∧ hashTableSize ≤ popWith s a.msg))
    (hi : findStats s.stats a.msg.category = some i) :
    ∃ r, packetArrive p a.env n t s a.msg = some r ∧
      r.state.rankTbl = update s.rankTbl a.msg.key
        (if Completes p s a.msg then none else some (arrivedEntry s a.msg)) ∧
      (r.state.rankTblPop =
        if Completes p s a.msg then popWith s a.msg - 1 else popWith s a.msg) ∧
      ∃ st, st.category = a.msg.category ∧ r.state.stats = update s.stats i st := by
  rw [packetArrive, if_neg hfull, updateStats, hi]
  exact ⟨_, rfl, rfl, rfl, _, rfl, rfl⟩

/-! ### The table -/

theorem tableRoom_snoc {pre : List Arrival} : TableRoom p ms as (pre ++ [a]) ↔
    TableRoom p ms as pre ∧ ((chunkLabels Arrival.info (expected p)).partsOf a.info.key pre = [] →
      numUnderWay p ms as pre + 1 < hashTableSize) := by
  constructor
  · refine fun h => ⟨fun pre' a' suf hpre => ?_, h pre a [] rfl⟩
    exact h pre' a' (suf ++ [a]) (by simp [hpre])
  · rintro ⟨h, hlast⟩ pre' a' suf hpre
    rcases List.eq_nil_or_concat suf with rfl | ⟨suf', a'', rfl⟩
    · obtain ⟨rfl, hsingle⟩ := List.append_inj' hpre rfl
      obtain rfl := List.singleton_inj.1 hsingle
      exact hlast
    · rw [List.concat_eq_append, ← List.cons_append, ← List.append_assoc] at hpre
      exact h pre' a' suf' (List.append_inj' hpre rfl).1

variable (hn : ∀ m ∈ (ms.plan (expected p)).messages, max 1 ((ms.plan (expected p)).expected m) =
    ((chunkLabels Arrival.info (expected p)).partsOf ((ms.plan (expected p)).key m) as).length)
  (has : (ms.plan (expected p)).Arrivals (chunkLabels Arrival.info (expected p))
    (fun a => a.info.totalSize) as)

include hn has

variable {pre suf : List Arrival} {x : Terminal × List (MsgKey × RemoteEvent)}

theorem pop_eq (hs : ∀ k, s.rankTbl k = none) (hpre : as = pre ++ suf)
    (hx : (receiver p n t).run (chunkLabels Arrival.info (expected p)) s pre = some x)
    (hok : TableOk x.1) : x.1.rankTblPop = numUnderWay p ms as pre := by
  obtain ⟨l, hnodup, hmem, hlen⟩ := hok.keys
  have htable := (keepsDesk.run_eq (fun k => by simp [hs]) hx).1
  have hopen : ∀ k : MsgKey, (⟨k.messageId, k.senderId⟩ : RankKey) ∈ l ↔
      (Desk.run (chunkLabels Arrival.info (expected p)) pre).table k ≠ none := by
    intro k
    rw [hmem, ← htable, receiver_table, ne_eq, ne_eq, Option.map_eq_none_iff]
  have hmsgs : ((ms.list.filter fun m =>
      (chunkLabels Arrival.info (expected p)).UnderWay as pre m.key).map Message.key).Perm
        (l.map fun k => (⟨k.messageId, k.senderId⟩ : MsgKey)) := by
    refine (List.perm_ext_iff_of_nodup ?_ ?_).2 fun k => ?_
    · exact ms.nodup.sublist (List.filter_sublist.map _)
    · refine hnodup.map fun k k' h => ?_
      obtain ⟨id, sender⟩ := k
      cases h
      rfl
    · have hk : k ∈ l.map (fun k => (⟨k.messageId, k.senderId⟩ : MsgKey)) ↔
          (⟨k.messageId, k.senderId⟩ : RankKey) ∈ l := by
        rw [List.mem_map]
        constructor
        · rintro ⟨k', hk', rfl⟩
          exact hk'
        · exact fun h => ⟨_, h, rfl⟩
      rw [hk, hopen, List.mem_map]
      constructor
      · rintro ⟨m, hm, rfl⟩
        obtain ⟨hm, hunder⟩ := List.mem_filter.1 hm
        exact (has.run_spec hm (hn m hm) hpre).1.2 (of_decide_eq_true hunder)
      · intro hne
        have hparts : (chunkLabels Arrival.info (expected p)).partsOf k pre ≠ [] := by
          intro hnil
          refine hne ?_
          have hrun := (Desk.run_spec (chunkLabels Arrival.info (expected p)) k 1 pre
            (fun a ha hkey => ?_) (by simp [hnil])).1
          · rwa [if_pos (.inl (by simp [hnil]))] at hrun
          · have := (mem_partsOf (chunkLabels Arrival.info (expected p))).2 ⟨ha, hkey⟩
            rw [hnil] at this
            cases this
        obtain ⟨a, ha⟩ := List.exists_mem_of_ne_nil _ hparts
        obtain ⟨hamem, rfl⟩ := (mem_partsOf _).1 ha
        obtain ⟨m, hm, hpart⟩ := has.isPart a (hpre ▸ List.mem_append_left _ hamem)
        have hkey : m.key = (chunkLabels Arrival.info (expected p)).key a := hpart.key.symm
        rw [← hkey] at hne
        exact ⟨m, List.mem_filter.2 ⟨hm, decide_eq_true
          ((has.run_spec hm (hn m hm) hpre).1.1 hne)⟩, hkey⟩
  have hlength := hmsgs.length_eq
  rw [List.length_map, List.length_map] at hlength
  rw [← hlen, ← hlength, numUnderWay, List.countP_eq_length_filter]

theorem isNew_iff (hs : ∀ k, s.rankTbl k = none) (hpre : as = pre ++ a :: suf)
    (hx : (receiver p n t).run (chunkLabels Arrival.info (expected p)) s pre = some x) :
    x.1.rankTbl a.msg.key = none ↔
      (chunkLabels Arrival.info (expected p)).partsOf a.info.key pre = [] := by
  have htable := (keepsDesk.run_eq (fun k => by simp [hs]) hx).1 a.info.key
  obtain ⟨m, hm, hpart⟩ := has.isPart a (by simp [hpre])
  have hkey : a.info.key = m.key := hpart.key
  have hrun := (has.run_spec hm (hn m hm) hpre).1
  have hnew : x.1.rankTbl a.msg.key = none ↔
      (Desk.run (chunkLabels Arrival.info (expected p)) pre).table m.key = none := by
    rw [← hkey, ← htable, receiver_table, Option.map_eq_none_iff]
    rfl
  have hlt : ((chunkLabels Arrival.info (expected p)).partsOf m.key pre).length <
      ((chunkLabels Arrival.info (expected p)).partsOf m.key as).length := by
    have hself : ((chunkLabels Arrival.info (expected p)).partsOf m.key [a]) = [a] := by
      simp [hkey]
    rw [hpre, ← List.singleton_append, partsOf_append, partsOf_append, hself]
    simp
  rw [hnew, hkey, ← List.length_eq_zero_iff]
  have hunder : (chunkLabels Arrival.info (expected p)).UnderWay as pre m.key ↔
      ((chunkLabels Arrival.info (expected p)).partsOf m.key pre).length ≠ 0 := by
    rw [Labels.UnderWay, Labels.Complete]
    omega
  exact not_iff_not.1 (hrun.trans hunder)

theorem run_spec (hs : ∀ k, s.rankTbl k = none) (hpop : s.rankTblPop = 0) {pre suf : List Arrival}
    (hpre : as = pre ++ suf) :
    (∀ x, (receiver p n t).run (chunkLabels Arrival.info (expected p)) s pre = some x →
      TableRoom p ms as pre ∧ TableOk x.1 ∧ ∃ names,
        s.stats.register (pre.map fun a => a.msg.category) = some names ∧
          x.1.stats.SameNames names) ∧
    ((receiver p n t).run (chunkLabels Arrival.info (expected p)) s pre = none →
      ¬ (TableRoom p ms as pre ∧ s.stats.HasRoomFor (pre.map fun a => a.msg.category))) := by
  have hinit : TableOk s := by
    refine ⟨⟨[], List.nodup_nil, fun k => ?_, hpop.symm⟩, ?_, ?_⟩
    · simp [hs]
    · rw [hpop]
      decide
    · simp [hs]
  refine run_register Terminal.stats (fun a => a.msg.category) (I := TableOk)
    (fun pre' a suf' h => ?_) (fun pre a => tableRoom_snoc) hinit
    (fun pre a suf x hpre hx hok => ?_) hpre
  · simp at h
  · have hfull : (x.1.rankTbl a.msg.key = none ∧ hashTableSize ≤ popWith x.1 a.msg) ↔
        ¬ ((chunkLabels Arrival.info (expected p)).partsOf a.info.key pre = [] →
          numUnderWay p ms as pre + 1 < hashTableSize) := by
      rw [← isNew_iff hn has hs hpre hx, popWith, pop_eq hn has hs hpre hx hok]
      by_cases hnone : x.1.rankTbl a.msg.key = none <;> simp [hnone]
    by_cases hc : x.1.rankTbl a.msg.key = none ∧ hashTableSize ≤ popWith x.1 a.msg
    · -- the table is full
      have hstep : packetArrive p a.env n t x.1 a.msg = none := by rw [packetArrive, if_pos hc]
      simp only [receiver, hstep]
      exact fun h => absurd h (hfull.1 hc)
    · cases hi : findStats x.1.stats a.msg.category with
      | none =>
        have hstep : packetArrive p a.env n t x.1 a.msg = none := by
          rw [packetArrive, if_neg hc, hi, Option.bind_none]
        simp only [receiver, hstep]
        exact fun _ => trivial
      | some i =>
        obtain ⟨r, hr, htbl, hpop', st, hst, hstats⟩ :=
          packetArrive_eq_some (p := p) (n := n) (t := t) hc hi
        simp only [receiver, hr, Option.map_some]
        exact ⟨not_not.1 (mt hfull.2 hc), hok.arrive _ hc htbl hpop', i, st, rfl, hst, hstats⟩

omit hn has

/-- **A terminal of a fat tree finishes each message once** exactly if the message as a whole has as
many chunks, as an `int`, as its packets have together, the table never overflows, the categories
find slots, and the last chunk of a pull has the payload that the answer takes from it. -/
theorem exactlyOnce_iff (hs : ∀ k, s.rankTbl k = none) (hpop : s.rankTblPop = 0)
    (has : IsOrder p n ms as) :
    ExactlyOnce (chunkLabels Arrival.info (expected p)) (ms.plan (expected p))
        ((receiver p n t).seen (chunkLabels Arrival.info (expected p)) s) as ↔
      (∀ m ∈ ms.list, max 1 (toInt (numChunks m.size p.chunkSize)) = numSent p m) ∧
      (TableRoom p ms as as ∧ s.stats.HasRoomFor (as.map fun a => a.msg.category)) ∧
      ∀ m ∈ ms.list, m.req.isPull = true → m.remoteEvent ≠ [] →
        ∀ a ∈ ((chunkLabels Arrival.info (expected p)).partsOf m.key as).getLast?,
          a.replyData m.remoteEvent.length = m.remoteEvent := by
  obtain ⟨gen, hperm⟩ := has
  have hcut : ∀ m ∈ ms.list, m.IsCut n (numSent p m) ((sentChunks p n (gen m) m).map Msg.info) :=
    fun m _ => isCut_sentChunks (gen m) m
  rw [Messages.exactlyOnce_iff keepsDesk (fun k => by simp [hs]) hcut hperm]
  refine and_congr_right fun hn => and_congr_left fun _ => ?_
  have hcounts : ∀ m ∈ (ms.plan (expected p)).messages, max 1 ((ms.plan (expected p)).expected m) =
      ((chunkLabels Arrival.info (expected p)).partsOf ((ms.plan (expected p)).key m)
        as).length := by
    intro m hm
    rw [Messages.plan_key, Messages.plan_expected, Messages.length_partsOf hcut hperm hm]
    exact hn m hm
  have harr : (ms.plan (expected p)).Arrivals (chunkLabels Arrival.info (expected p))
      (fun a => a.info.totalSize) as := Messages.arrivals hcut hperm
  have hspec := run_spec (p := p) (n := n) (t := t) (s := s) hcounts harr hs hpop
    (List.append_nil as).symm
  cases hx : (receiver p n t).run (chunkLabels Arrival.info (expected p)) s as with
  | none => exact ⟨fun h => absurd rfl h, fun h => absurd h (hspec.2 hx)⟩
  | some x =>
    obtain ⟨hroom, -, names, hreg, -⟩ := hspec.1 x hx
    simp [hroom, StatsArray.HasRoomFor, hreg]

end

end FatTree

/-! ### Both networks -/

section

/-- **Each message is finished exactly once**, in an express mesh and in a fat tree, exactly if the
receiver, which rounds up once for the message, expects as many chunks as the sender, which rounds
up once for each packet, makes of it; they can be counted by an `int`; no chunk comes from the
terminal itself (express mesh); the table never overflows (fat tree); the categories find slots; and
the last chunk of a pull has the payload that the answer takes from it. -/
theorem finishes_once_iff (ms : Messages) (n : ℕ) :
    (∀ (p : Mesh.Param) (s : Mesh.Terminal) (as : List Mesh.Arrival), (∀ k, s.rankTbl k = none) →
      Mesh.IsOrder p n ms as →
      (ExactlyOnce (chunkLabels Mesh.Arrival.info (Mesh.expected p)) (ms.plan (Mesh.expected p))
          ((Mesh.receiver p n).seen (chunkLabels Mesh.Arrival.info (Mesh.expected p)) s) as ↔
        (∀ m ∈ ms.list, numChunks m.size p.chunkSize = Mesh.numSent p m ∧
          Mesh.numSent p m < 2 ^ 31) ∧
        ((∀ a ∈ as, a.msg.srcTerminalId ≠ n) ∧
          s.stats.HasRoomFor (as.map fun a => a.msg.category)) ∧
        ∀ m ∈ ms.list, m.req.isPull = true → m.remoteEvent ≠ [] →
          ∀ a ∈ ((chunkLabels Mesh.Arrival.info (Mesh.expected p)).partsOf m.key as).getLast?,
            a.replyData m.remoteEvent.length = m.remoteEvent)) ∧
    ∀ (p : FatTree.Param) (t : FatTree.Topology) (s : FatTree.Terminal)
      (as : List FatTree.Arrival), (∀ k, s.rankTbl k = none) → s.rankTblPop = 0 →
      FatTree.IsOrder p n ms as →
      (ExactlyOnce (chunkLabels FatTree.Arrival.info (FatTree.expected p))
          (ms.plan (FatTree.expected p)) ((FatTree.receiver p n t).seen
            (chunkLabels FatTree.Arrival.info (FatTree.expected p)) s) as ↔
        (∀ m ∈ ms.list, max 1 (FatTree.toInt (numChunks m.size p.chunkSize)) =
          FatTree.numSent p m) ∧
        (FatTree.TableRoom p ms as as ∧ s.stats.HasRoomFor (as.map fun a => a.msg.category)) ∧
        ∀ m ∈ ms.list, m.req.isPull = true → m.remoteEvent ≠ [] →
          ∀ a ∈ ((chunkLabels FatTree.Arrival.info (FatTree.expected p)).partsOf m.key as).getLast?,
            a.replyData m.remoteEvent.length = m.remoteEvent) := by
  constructor
  · intro p s as hs has
    exact Mesh.exactlyOnce_iff hs has
  · intro p t s as hs hpop has
    exact FatTree.exactlyOnce_iff hs hpop has

/-- A message of `size` bytes in packets of 96 bytes, with a payload for its destination. -/
def inPacketsOf96 (size : UInt64) : Message where
  req := { (default : Request) with msgSize := size, packetSize := 96, remoteEventSize := 1 }
  remoteEvent := [7]
  selfEvent := []
  senderMnLp := 0
  remoteEvent_ne := by simp

def onlyOne (m : Message) : Messages := ⟨[m], List.nodup_singleton _⟩

namespace Mesh

theorem lineOfTwo_chunkSize_pos : 0 < 64 := by decide

/-- Two routers with a terminal each and chunks of 64 bytes. -/
def lineOfTwo : Param where
  numCn := 1
  numVcs := 1
  vcSize := 128
  cnVcSize := 64
  chunkSize := 64
  routing := .static
  dimLength := [2]
  gap := 1
  cnDelay := 0
  linkDelay := 0
  creditDelay := 0
  routerDelay := 0
  msgSz := 0
  numCn_pos := Nat.one_pos
  chunkSize_pos := lineOfTwo_chunkSize_pos
  gap_pos := Nat.one_pos
  length_pos := twoInLine_length_pos
  numVcs_pos := Nat.one_pos
  adaptive_vcs := oneVc_static

def quietEnv : Env := ⟨0, 0, default, fun _ => 0, fun _ => 0, fun _ => 0, fun _ => 0, 0⟩

/-- The chunks of a message of terminal 0 arrive at terminal 1 in the order in which they are
made. -/
def inOrder (m : Message) : List Arrival :=
  (sentChunks lineOfTwo 1 (fun _ => quietEnv) m).map fun c => ⟨quietEnv, toRouter 0 0 c⟩

theorem isOrder_inOrder (m : Message) : IsOrder lineOfTwo 1 (onlyOne m) (inOrder m) := by
  refine ⟨fun _ _ => quietEnv, ?_⟩
  rw [onlyOne, List.flatMap_singleton, inOrder, List.map_map]
  exact .refl _

end Mesh

namespace FatTree

/-- Two switches with a terminal each and chunks of 64 bytes. -/
def chunksOf64 : Param where
  ftType := 0
  numLevels := 2
  linkRepetitions := 1
  numTerminals := 2
  l0TermSize := 1
  l1TermSize := 2
  vcSize := 64
  cnVcSize := 64
  chunkSize := 64
  numRails := 1
  portsPerNic := 1
  routing := .adaptive
  railSelect := .dedicated
  railSizeLimit := 0
  linkBandwidth := 1
  cnDelay := 0
  headDelay := 0
  creditDelay := 0
  routerDelay := 0
  msgSz := 0

def quietEnv : Env := ⟨0, 0, default, fun _ => 0, fun _ => 0, fun _ => 0, fun _ => 0⟩

/-- The chunks of a message arrive at terminal 1 in the order in which they are made. -/
def inOrder (m : Message) : List Arrival :=
  (sentChunks chunksOf64 1 (fun _ => (quietEnv, Terminal.init)) m).map fun c => ⟨quietEnv, c⟩

theorem isOrder_inOrder (m : Message) : IsOrder chunksOf64 1 (onlyOne m) (inOrder m) := by
  refine ⟨fun _ _ => (quietEnv, Terminal.init), ?_⟩
  rw [onlyOne, List.flatMap_singleton, inOrder, List.map_map]
  exact .refl _

end FatTree

/-- A message of 160 bytes, in packets of 96 and 64 bytes, is finished once. -/
theorem finishes_once_iff_160 : (ExactlyOnce
      (chunkLabels Mesh.Arrival.info (Mesh.expected Mesh.lineOfTwo))
      ((onlyOne (inPacketsOf96 160)).plan (Mesh.expected Mesh.lineOfTwo))
      ((Mesh.receiver Mesh.lineOfTwo 1).seen
        (chunkLabels Mesh.Arrival.info (Mesh.expected Mesh.lineOfTwo)) Mesh.Terminal.init)
      (Mesh.inOrder (inPacketsOf96 160))) ∧
    ∀ t, ExactlyOnce (chunkLabels FatTree.Arrival.info (FatTree.expected FatTree.chunksOf64))
      ((onlyOne (inPacketsOf96 160)).plan (FatTree.expected FatTree.chunksOf64))
      ((FatTree.receiver FatTree.chunksOf64 1 t).seen
        (chunkLabels FatTree.Arrival.info (FatTree.expected FatTree.chunksOf64))
        FatTree.Terminal.init)
      (FatTree.inOrder (inPacketsOf96 160)) := by
  refine ⟨((finishes_once_iff (onlyOne (inPacketsOf96 160)) 1).1 Mesh.lineOfTwo Mesh.Terminal.init
    _ (fun _ => rfl) (Mesh.isOrder_inOrder _)).2 ⟨?_, ⟨?_, ?_⟩, ?_⟩, fun t =>
    ((finishes_once_iff (onlyOne (inPacketsOf96 160)) 1).2 FatTree.chunksOf64 t
      FatTree.Terminal.init _ (fun _ => rfl) rfl (FatTree.isOrder_inOrder _)).2 ⟨?_, ⟨?_, ?_⟩, ?_⟩⟩
  · intro m hm
    obtain rfl := List.mem_singleton.1 hm
    decide
  · intro a ha
    obtain ⟨c, -, rfl⟩ := List.mem_map.1 ha
    exact Nat.zero_ne_one
  · exact Option.some_ne_none _
  · intro m hm hpull
    obtain rfl := List.mem_singleton.1 hm
    cases hpull
  · intro m hm
    obtain rfl := List.mem_singleton.1 hm
    decide
  · intro pre a suf _ _
    have hcount : FatTree.numUnderWay FatTree.chunksOf64 (onlyOne (inPacketsOf96 160))
        (FatTree.inOrder (inPacketsOf96 160)) pre ≤ 1 := List.countP_le_length
    rw [FatTree.hashTableSize]
    omega
  · exact Option.some_ne_none _
  · intro m hm hpull
    obtain rfl := List.mem_singleton.1 hm
    cases hpull

/-- A message of 192 bytes is sent in two packets of two chunks, but three are expected: it is
finished before the last chunk arrives, which opens an entry that stays. -/
theorem finished_early : (∃ x, (Mesh.receiver Mesh.lineOfTwo 1).run
      (chunkLabels Mesh.Arrival.info (Mesh.expected Mesh.lineOfTwo)) Mesh.Terminal.init
      (Mesh.inOrder (inPacketsOf96 192)) = some x ∧ x.1.finishedMsgs = 1 ∧
      x.1.rankTbl ⟨0, 0⟩ = some ⟨1, [7]⟩) ∧
    Mesh.IsOrder Mesh.lineOfTwo 1 (onlyOne (inPacketsOf96 192))
      (Mesh.inOrder (inPacketsOf96 192)) ∧
    ¬ ExactlyOnce (chunkLabels Mesh.Arrival.info (Mesh.expected Mesh.lineOfTwo))
      ((onlyOne (inPacketsOf96 192)).plan (Mesh.expected Mesh.lineOfTwo))
      ((Mesh.receiver Mesh.lineOfTwo 1).seen
        (chunkLabels Mesh.Arrival.info (Mesh.expected Mesh.lineOfTwo)) Mesh.Terminal.init)
      (Mesh.inOrder (inPacketsOf96 192)) ∧
    FatTree.IsOrder FatTree.chunksOf64 1 (onlyOne (inPacketsOf96 192))
      (FatTree.inOrder (inPacketsOf96 192)) ∧
    ∀ t, ¬ ExactlyOnce (chunkLabels FatTree.Arrival.info (FatTree.expected FatTree.chunksOf64))
      ((onlyOne (inPacketsOf96 192)).plan (FatTree.expected FatTree.chunksOf64))
      ((FatTree.receiver FatTree.chunksOf64 1 t).seen
        (chunkLabels FatTree.Arrival.info (FatTree.expected FatTree.chunksOf64))
        FatTree.Terminal.init)
      (FatTree.inOrder (inPacketsOf96 192)) := by
  have hmesh : numChunks (inPacketsOf96 192).size 64 = 3 ∧
      Mesh.numSent Mesh.lineOfTwo (inPacketsOf96 192) = 4 := by decide
  have htree : max 1 (FatTree.toInt (numChunks (inPacketsOf96 192).size 64)) = 3 ∧
      FatTree.numSent FatTree.chunksOf64 (inPacketsOf96 192) = 4 := by decide
  refine ⟨⟨_, rfl, rfl, rfl⟩, Mesh.isOrder_inOrder _, fun h => ?_, FatTree.isOrder_inOrder _,
    fun t h => ?_⟩
  · have hcount := ((Mesh.exactlyOnce_iff (fun _ => rfl) (Mesh.isOrder_inOrder _)).1 h).1 _
      (List.mem_singleton_self _)
    rw [show Mesh.lineOfTwo.chunkSize = 64 from rfl, hmesh.1, hmesh.2] at hcount
    omega
  · have hcount := ((FatTree.exactlyOnce_iff (fun _ => rfl) rfl (FatTree.isOrder_inOrder _)).1 h).1
      _ (List.mem_singleton_self _)
    rw [show FatTree.chunksOf64.chunkSize = 64 from rfl, htree.1, htree.2] at hcount
    omega

end

end CodesSim
