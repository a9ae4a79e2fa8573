import CodesSim.Base.Message
import CodesSim.Mesh.Terminal

/-!
# Messages of an express mesh are put together again

`packetArrive` keeps a desk (`Assembly.Desk`): it counts the chunks of each message and finishes the
message when as many have arrived as `numChunks` gives for its size.  The sender rounds up once for
each packet (`numSent`), so it may send more of them.
-/

namespace CodesSim.Mesh

open Assembly

/-! ### From the request to the chunks -/

def Msg.info (msg : Msg) : ChunkInfo where
  category := msg.category
  finalDestGid := msg.finalDestGid
  senderLp := msg.senderLp
  senderMnLp := msg.senderMnLp
  destTerminal := msg.destTerminal
  messageId := msg.messageId
  totalSize := msg.totalSize
  packetSize := msg.packetSize
  chunkId := msg.chunkId
  isPull := msg.isPull
  pullSize := msg.pullSize
  msgStartTime := msg.msgStartTime
  remoteEvent := msg.remoteEvent

variable (p : Param) (n : ℕ)

/-- The chunks of a packet of a message to terminal `n`. -/
def packetChunks (env : Env) (m : Message) (pk : Packet) : List Msg :=
  chunksOf p (generatedMsg (packetEvent env m.senderMnLp n m.req (.ofNat pk.size)
    (some m.remoteEvent) (some m.selfEvent) pk.isLast))

/-- The chunks of a message to terminal `n`; its packets are generated in the surroundings
`envs`. -/
def sentChunks (envs : Packet → Env) (m : Message) : List Msg :=
  m.req.packets.flatMap fun pk => packetChunks p n (envs pk) m pk

/-- The number of chunks that a message is sent in. -/
def numSent (m : Message) : ℕ := (m.req.packets.map fun pk => numChunks pk.size p.chunkSize).sum

section

variable {p n} {env : Env} {envs : Packet → Env} {m : Message} {pk : Packet} {c : Msg}

theorem length_packetChunks (hpk : pk ∈ m.req.packets) :
    (packetChunks p n env m pk).length = numChunks pk.size p.chunkSize := by
  have hsize : (UInt64.ofNat pk.size).toNat = pk.size :=
    UInt64.toNat_ofNat_of_lt (m.packet_size_lt hpk)
  simp [packetChunks, chunksOf, generatedMsg, packetEvent, hsize]

theorem isChunk_of_mem_packetChunks (hc : c ∈ packetChunks p n env m pk) :
    m.IsChunk n c.info ∧ c.info.remoteEvent = if pk.isLast then m.remoteEvent else [] := by
  obtain ⟨j, -, rfl⟩ := List.mem_map.1 hc
  have hremote := m.packet_remoteEvent pk.isLast
  refine ⟨⟨rfl, rfl, rfl, rfl, rfl, rfl, rfl, rfl, ?_⟩, hremote⟩
  refine (em (pk.isLast = true)).elim (fun h => .inr ?_) (fun h => .inl ?_)
  · exact hremote.trans (if_pos h)
  · exact hremote.trans (if_neg h)

/-- **What `packet_generate` makes of a message.** -/
theorem isCut_sentChunks (envs : Packet → Env) (m : Message) :
    m.IsCut n (numSent p m) ((sentChunks p n envs m).map Msg.info) := by
  rw [sentChunks, List.map_flatMap]
  refine m.isCut_flatMap (fun size => one_le_numChunks size p.chunkSize) (fun pk hpk => ?_)
    fun pk i hi => ?_
  · rw [List.length_map, length_packetChunks hpk]
  · obtain ⟨c, hc, rfl⟩ := List.mem_map.1 hi
    exact isChunk_of_mem_packetChunks hc

end

/-! ### The receiver -/

/-- A chunk arrives. -/
structure Arrival where
  env : Env
  msg : Msg

def Arrival.info (a : Arrival) : ChunkInfo := a.msg.info

/-- What a chunk that completes a pull is answered with. -/
def Arrival.replyData (a : Arrival) (len : ℕ) : List UInt8 :=
  (a.msg.remoteEvent ++ a.msg.localEvent ++ (List.range len).map a.env.behind).take len

/-- The remote events among what a handler sends. -/
def remoteEvents (outs : List Out) : List RemoteEvent :=
  outs.filterMap fun
    | .server dest _ data => some (.push dest data)
    | .pull destMnLp finalDest size startTime _ data =>
      some (.reply destMnLp finalDest size startTime data)
    | _ => none

/-- Terminal `n` as a receiver. -/
def receiver : Receiver Terminal Arrival MsgKey UInt8 RemoteEvent where
  step s a := (packetArrive p a.env n s a.msg).map fun r => (r.state, remoteEvents r.outs)
  table s k :=
    (s.rankTbl ⟨k.messageId, k.senderId⟩).map fun e => ⟨e.numChunks, e.remoteEventData⟩
  finished s := s.finishedMsgs
  bytes s := s.totalMsgSize

@[simp] theorem receiver_table (s : Terminal) (k : MsgKey) : (receiver p n).table s k =
    (s.rankTbl ⟨k.messageId, k.senderId⟩).map fun e => ⟨e.numChunks, e.remoteEventData⟩ := rfl

@[simp] theorem receiver_finished (s : Terminal) :
    (receiver p n).finished s = s.finishedMsgs := rfl

@[simp] theorem receiver_bytes (s : Terminal) : (receiver p n).bytes s = s.totalMsgSize := rfl

/-- The number of chunks that is expected of a message of some size. -/
def expected (size : ℕ) : ℤ := numChunks size p.chunkSize

/-- The chunks `as` that arrive at terminal `n` are those of the messages `ms`, in any order. -/
def IsOrder (ms : Messages) (as : List Arrival) : Prop :=
  ∃ envs : Message → Packet → Env, (as.map Arrival.info).Perm
    (ms.list.flatMap fun m => (sentChunks p n (envs m) m).map Msg.info)

/-- The chunks `pre` come from other terminals than `n`, and no message has so many of them that
they cannot be counted. -/
def Acceptable (pre : List Arrival) : Prop :=
  ∀ a ∈ pre, a.msg.srcTerminalId ≠ n ∧
    ((chunkLabels Arrival.info (expected p)).partsOf a.info.key pre).length < 2 ^ 31

section

variable {p n} {s : Terminal} {a : Arrival} {as : List Arrival} {ms : Messages}

theorem entry_receiver (expected : ℕ → ℤ) : (receiver p n).entry (chunkLabels Arrival.info expected)
    s a = ⟨(arrivedEntry s a.msg).numChunks, (arrivedEntry s a.msg).remoteEventData⟩ :=
  HashEntry.entry_add _ _

theorem keepsDesk : (receiver p n).KeepsDesk (chunkLabels Arrival.info (expected p))
    (emitFor Arrival.info Arrival.replyData) fun a => a.info.totalSize := by
  intro s a s' issued hstep
  obtain ⟨r, hr, h⟩ := Option.map_eq_some_iff.1 hstep
  cases h
  simp only [packetArrive, Option.ite_none_right_eq_some, Option.bind_eq_some_iff,
    Option.map_eq_some_iff] at hr
  obtain ⟨-, i, -, stats, -, rfl⟩ := hr
  have hentry := entry_receiver (p := p) (n := n) (s := s) (a := a) (expected p)
  have hdone : (receiver p n).Completes (chunkLabels Arrival.info (expected p)) s a ↔
      Completes p s a.msg := by
    rw [Receiver.Completes, hentry]
    rfl
  constructor
  · intro k
    have hkey : (⟨k.messageId, k.senderId⟩ : RankKey) = a.msg.key ↔ k = a.info.key := by
      obtain ⟨id, sender⟩ := k
      simp [Msg.key, Arrival.info, Msg.info, ChunkInfo.key]
    simp only [receiver_table, Function.update_apply, chunkLabels_key, hkey, hentry, hdone]
    by_cases hk : k = a.info.key <;> by_cases hc : Completes p s a.msg <;> simp [hk, hc]
  · simp [hdone]
  · simp [hdone, Arrival.info, Msg.info]
  · by_cases hc : Completes p s a.msg <;>
      by_cases hdata : (arrivedEntry s a.msg).remoteEventData = [] <;>
      by_cases hpull : a.msg.isPull = true <;>
      simp [Delivers, remoteEvents, arrivalCredit, sendRemoteEvent, emitFor, Arrival.replyData,
        Arrival.info, Msg.info, hentry, hdone, hc, hdata, hpull]

theorem packetArrive_eq_some {i : ℕ} (hacc : a.msg.destTerminal = n ∧ a.msg.srcTerminalId ≠ n ∧
      (arrivedEntry s a.msg).numChunks < 2 ^ 31) (hi : findStats s.stats a.msg.category = some i) :
    ∃ r, packetArrive p a.env n s a.msg = some r ∧
      ∃ st, st.category = a.msg.category ∧ r.state.stats = Function.update s.stats i st := by
  rw [packetArrive, if_pos hacc, updateStats, hi]
  exact ⟨_, rfl, _, rfl, rfl⟩

/-! ### The chunks that are accepted -/

theorem acceptable_snoc {pre : List Arrival} : Acceptable p n (pre ++ [a]) ↔ Acceptable p n pre ∧
    a.msg.srcTerminalId ≠ n ∧
    ((chunkLabels Arrival.info (expected p)).partsOf a.info.key (pre ++ [a])).length < 2 ^ 31 := by
  constructor
  · intro h
    refine ⟨fun a' ha' => ⟨(h a' (by simp [ha'])).1, ?_⟩, h a (by simp)⟩
    have hlt := (h a' (by simp [ha'])).2
    rw [partsOf_append, List.length_append] at hlt
    omega
  · rintro ⟨hbefore, hsrc, hlast⟩ a' ha'
    rcases List.mem_append.1 ha' with ha' | ha'
    · refine ⟨(hbefore a' ha').1, ?_⟩
      by_cases hkey : a.info.key = a'.info.key
      · rwa [hkey] at hlast
      · rw [partsOf_append, partsOf_singleton, chunkLabels_key, if_neg hkey, List.append_nil]
        exact (hbefore a' ha').2
    · rw [List.mem_singleton.1 ha']
      exact ⟨hsrc, hlast⟩

section

variable (hn : ∀ m ∈ (ms.plan (expected p)).messages, max 1 ((ms.plan (expected p)).expected m) =
    ((chunkLabels Arrival.info (expected p)).partsOf ((ms.plan (expected p)).key m) as).length)
  (has : (ms.plan (expected p)).Arrivals (chunkLabels Arrival.info (expected p))
    (fun a => a.info.totalSize) as)

include hn has

theorem count_arrivedEntry (hs : ∀ k, s.rankTbl k = none) {pre suf : List Arrival}
    (hpre : as = pre ++ a :: suf) {x : Terminal × List (MsgKey × RemoteEvent)}
    (hx : (receiver p n).run (chunkLabels Arrival.info (expected p)) s pre = some x) :
    (arrivedEntry x.1 a.msg).numChunks =
      ((chunkLabels Arrival.info (expected p)).partsOf a.info.key (pre ++ [a])).length := by
  obtain ⟨m, hm, hpart⟩ := has.isPart a (by simp [hpre])
  have hkey : a.info.key = m.key := hpart.key
  have hdesk := keepsDesk.entry_eq (fun k => by simp [hs]) hx a
  rw [entry_receiver] at hdesk
  have hcount := has.entry_count hm (hn m hm) hpre hpart.key
  rw [← hdesk] at hcount
  rw [hkey]
  exact hcount

theorem run_spec (hs : ∀ k, s.rankTbl k = none) (hdest : ∀ a ∈ as, a.msg.destTerminal = n)
    {pre suf : List Arrival} (hpre : as = pre ++ suf) :
    (∀ x, (receiver p n).run (chunkLabels Arrival.info (expected p)) s pre = some x →
      Acceptable p n pre ∧ True ∧ ∃ names,
        s.stats.register (pre.map fun a => a.msg.category) = some names ∧
          x.1.stats.SameNames names) ∧
    ((receiver p n).run (chunkLabels Arrival.info (expected p)) s pre = none →
      ¬ (Acceptable p n pre ∧ s.stats.HasRoomFor (pre.map fun a => a.msg.category))) := by
  refine run_register Terminal.stats (fun a => a.msg.category) (I := fun _ => True)
    (fun a ha => absurd ha List.not_mem_nil) (fun pre a => acceptable_snoc) trivial
    (fun pre a suf x hpre hx _ => ?_) hpre
  have hacc : (a.msg.destTerminal = n ∧ a.msg.srcTerminalId ≠ n ∧
      (arrivedEntry x.1 a.msg).numChunks < 2 ^ 31) ↔ a.msg.srcTerminalId ≠ n ∧
      ((chunkLabels Arrival.info (expected p)).partsOf a.info.key
        (pre ++ [a])).length < 2 ^ 31 := by
    rw [and_iff_right (hdest a (by simp [hpre])), count_arrivedEntry hn has hs hpre hx]
    norm_cast
  by_cases hc : a.msg.destTerminal = n ∧ a.msg.srcTerminalId ≠ n ∧
      (arrivedEntry x.1 a.msg).numChunks < 2 ^ 31
  · cases hi : findStats x.1.stats a.msg.category with
    | none =>
      have hstep : packetArrive p a.env n x.1 a.msg = none := by
        rw [packetArrive, if_pos hc, hi, Option.bind_none]
      simp only [receiver, hstep]
      exact fun _ => trivial
    | some i =>
      obtain ⟨r, hr, st, hst, hstats⟩ := packetArrive_eq_some (p := p) hc hi
      simp only [receiver, hr, Option.map_some]
      exact ⟨hacc.1 hc, trivial, i, st, rfl, hst, hstats⟩
  · have hstep : packetArrive p a.env n x.1 a.msg = none := by rw [packetArrive, if_neg hc]
    simp only [receiver, hstep]
    exact fun h => absurd (hacc.2 h) hc

end

/-- **A terminal of an express mesh finishes each message once** exactly if the message as a whole
has as many chunks as its packets have together, they can be counted, none comes from the terminal
itself, the categories find slots, and the last chunk of a pull has the payload that the answer
takes from it. -/
theorem exactlyOnce_iff (hs : ∀ k, s.rankTbl k = none) (has : IsOrder p n ms as) :
    ExactlyOnce (chunkLabels Arrival.info (expected p)) (ms.plan (expected p))
        ((receiver p n).seen (chunkLabels Arrival.info (expected p)) s) as ↔
      (∀ m ∈ ms.list, numChunks m.size p.chunkSize = numSent p m ∧ numSent p m < 2 ^ 31) ∧
      ((∀ a ∈ as, a.msg.srcTerminalId ≠ n) ∧
        s.stats.HasRoomFor (as.map fun a => a.msg.category)) ∧
      ∀ m ∈ ms.list, m.req.isPull = true → m.remoteEvent ≠ [] →
        ∀ a ∈ ((chunkLabels Arrival.info (expected p)).partsOf m.key as).getLast?,
          a.replyData m.remoteEvent.length = m.remoteEvent := by
  obtain ⟨envs, hperm⟩ := has
  have hcut : ∀ m ∈ ms.list, m.IsCut n (numSent p m) ((sentChunks p n (envs m) m).map Msg.info) :=
    fun m _ => isCut_sentChunks (envs m) m
  have harr : (ms.plan (expected p)).Arrivals (chunkLabels Arrival.info (expected p))
      (fun a => a.info.totalSize) as := Messages.arrivals hcut hperm
  have hdest : ∀ a ∈ as, a.msg.destTerminal = n := by
    intro a ha
    obtain ⟨m, -, hchunk⟩ := Messages.exists_isChunk hcut hperm ha
    exact hchunk.destTerminal
  have hlength : ∀ m ∈ ms.list,
      ((chunkLabels Arrival.info (expected p)).partsOf m.key as).length = numSent p m :=
    fun m hm => Messages.length_partsOf hcut hperm hm
  have hacceptable : Acceptable p n as ↔
      (∀ m ∈ ms.list, numSent p m < 2 ^ 31) ∧ ∀ a ∈ as, a.msg.srcTerminalId ≠ n := by
    constructor
    · intro h
      refine ⟨fun m hm => ?_, fun a ha => (h a ha).1⟩
      obtain ⟨a, ha⟩ := List.exists_mem_of_ne_nil _ (harr.parts_ne m hm)
      obtain ⟨ha, hkey⟩ := (mem_partsOf _).1 ha
      have hlt := (h a ha).2
      rwa [show a.info.key = m.key from hkey, hlength m hm] at hlt
    · rintro ⟨hlt, hsrc⟩ a ha
      refine ⟨hsrc a ha, ?_⟩
      obtain ⟨m, hm, hchunk⟩ := Messages.exists_isChunk hcut hperm ha
      rw [hchunk.key, hlength m hm]
      exact hlt m hm
  have hcounts : (∀ m ∈ ms.list, max 1 (expected p m.size) = numSent p m) ↔
      ∀ m ∈ ms.list, numChunks m.size p.chunkSize = numSent p m := by
    refine forall₂_congr fun m _ => ?_
    have hpos := one_le_numChunks m.size p.chunkSize
    rw [expected]
    omega
  have hrun : (∀ m ∈ ms.list, max 1 (expected p m.size) = numSent p m) →
      ((receiver p n).run (chunkLabels Arrival.info (expected p)) s as ≠ none ↔
        Acceptable p n as ∧ s.stats.HasRoomFor (as.map fun a => a.msg.category)) := by
    intro hn
    have hspec := run_spec (p := p) (n := n) (s := s) (fun m hm => by
      rw [Messages.plan_key, Messages.plan_expected, hlength m hm]
      exact hn m hm) harr hs hdest (List.append_nil as).symm
    cases hx : (receiver p n).run (chunkLabels Arrival.info (expected p)) s as with
    | none => exact ⟨fun h => absurd rfl h, fun h => absurd h (hspec.2 hx)⟩
    | some x =>
      obtain ⟨hok, -, names, hreg, -⟩ := hspec.1 x hx
      simp [hok, StatsArray.HasRoomFor, hreg]
  rw [Messages.exactlyOnce_iff keepsDesk (fun k => by simp [hs]) hcut hperm, forall₂_and,
    and_assoc, ← hcounts]
  refine and_congr_right fun hn => ?_
  rw [hrun hn, hacceptable]
  tauto

end

end CodesSim.Mesh
