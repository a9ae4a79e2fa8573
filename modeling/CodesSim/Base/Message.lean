import CodesSim.Base.RankTable
import CodesSim.Lib.Assembly
import CodesSim.Sched.Packets

/-!
# Messages and their chunks

The scheduler cuts a message into packets, the terminal cuts a packet into chunks, and the receiver
puts the message together again when its chunks have arrived, in any order.

* `Message.IsCut` : what is known of the chunks of a message;
* `Messages.exactlyOnce_iff` : when a receiver that keeps a desk finishes each message once and
  issues its remote event.
-/

namespace CodesSim

open Assembly

/-! ### Messages -/

/-- A message: its request, its payloads for the destination and for the sender, and the model-net
LP that sends it. -/
structure Message where
  req : Request
  remoteEvent : List UInt8
  selfEvent : List UInt8
  senderMnLp : Lpid
  remoteEvent_ne : 0 < req.remoteEventSize ↔ remoteEvent ≠ []

/-- The key under which a message is put together. -/
structure MsgKey where
  messageId : ℕ
  senderId : Lpid
  deriving DecidableEq

/-- What a receiver issues for a message: its payload for the destination, or the reply to a
pull. -/
inductive RemoteEvent where
  | push (dest : Lpid) (data : List UInt8)
  | reply (destMnLp finalDest : Lpid) (size : ℕ) (startTime : STime) (data : List UInt8)

namespace Message

variable (m : Message)

def size : ℕ := m.req.msgSize.toNat

def key : MsgKey := ⟨m.req.msgId.toNat, m.req.srcLp⟩

/-- The remote event of a message, if it has one. -/
def events : List RemoteEvent :=
  if m.remoteEvent = [] then []
  else if m.req.isPull then
    [.reply m.senderMnLp m.req.srcLp m.req.pullSize.toNat m.req.msgStartTime m.remoteEvent]
  else [.push m.req.finalDestLp m.remoteEvent]

theorem packet_remoteEvent (isLast : Bool) :
    (if isLast ∧ m.req.remoteEventSize > 0 then (some m.remoteEvent).getD [] else []) =
      if isLast then m.remoteEvent else [] := by
  have h := m.remoteEvent_ne
  by_cases hne : m.remoteEvent = []
  · simp [hne]
  · have hpos := h.2 hne
    simp [hpos]

theorem packet_size_lt {pk : Packet} (h : pk ∈ m.req.packets) : pk.size < 2 ^ 64 := by
  obtain ⟨i, -, rfl⟩ := List.mem_map.1 h
  have hsize := m.req.msgSize.toNat_lt
  have hpacket := m.req.packetSize.toNat_lt
  by_cases hlast : i + 1 = numPackets m.req.msgSize.toNat m.req.packetSize.toNat
  · simp only [packetAt, hlast, decide_true, if_true]
    omega
  · rw [packetAt_size_of_ne hlast]
    exact hpacket

theorem exists_last_packet : ∃ pk ∈ m.req.packets, pk.isLast = true := by
  have hpos := numPackets_pos m.req.msgSize.toNat m.req.packetSize.toNat
  refine ⟨_, List.mem_map_of_mem (List.mem_range.2 (Nat.sub_one_lt_of_lt hpos)), ?_⟩
  simp only [packetAt, decide_eq_true_eq]
  omega

end Message

/-! ### Chunks -/

/-- What the receiver needs to know about a chunk. -/
structure ChunkInfo where
  category : String
  (finalDestGid senderLp senderMnLp : Lpid)
  (destTerminal messageId totalSize packetSize chunkId : ℕ)
  isPull : Bool
  pullSize : ℕ
  msgStartTime : STime
  remoteEvent : List UInt8

def ChunkInfo.key (i : ChunkInfo) : MsgKey := ⟨i.messageId, i.senderLp⟩

/-- What all chunks of a message to terminal `dest` have in common. -/
structure Message.IsChunk (m : Message) (dest : ℕ) (i : ChunkInfo) : Prop where
  key : i.key = m.key
  finalDestGid : i.finalDestGid = m.req.finalDestLp
  senderMnLp : i.senderMnLp = m.senderMnLp
  destTerminal : i.destTerminal = dest
  totalSize : i.totalSize = m.size
  isPull : i.isPull = m.req.isPull
  pullSize : i.pullSize = m.req.pullSize.toNat
  msgStartTime : i.msgStartTime = m.req.msgStartTime
  remoteEvent : i.remoteEvent = [] ∨ i.remoteEvent = m.remoteEvent

/-- `chunks` are the chunks of a message to terminal `dest`, `num` of them. -/
structure Message.IsCut (m : Message) (dest num : ℕ) (chunks : List ChunkInfo) : Prop where
  isChunk : ∀ i ∈ chunks, m.IsChunk dest i
  length : chunks.length = num
  exists_payload : ∃ i ∈ chunks, i.remoteEvent = m.remoteEvent

/-- **A message is cut** into the chunks of its packets, if each packet has a chunk and the last one
brings the payload. -/
theorem Message.isCut_flatMap (m : Message) {dest : ℕ} {num : ℕ → ℕ}
    {chunks : Packet → List ChunkInfo} (hpos : ∀ size, 1 ≤ num size)
    (hlength : ∀ pk ∈ m.req.packets, (chunks pk).length = num pk.size)
    (hchunk : ∀ pk, ∀ i ∈ chunks pk, m.IsChunk dest i ∧
      i.remoteEvent = if pk.isLast then m.remoteEvent else []) :
    m.IsCut dest (m.req.packets.map fun pk => num pk.size).sum (m.req.packets.flatMap chunks) := by
  constructor
  · intro i hi
    obtain ⟨pk, -, hi⟩ := List.mem_flatMap.1 hi
    exact (hchunk pk i hi).1
  · rw [List.length_flatMap]
    exact congrArg List.sum (List.map_congr_left hlength)
  · obtain ⟨pk, hpk, hlast⟩ := m.exists_last_packet
    obtain ⟨i, hi⟩ := List.exists_mem_of_length_pos
      ((hpos pk.size).trans_eq (hlength pk hpk).symm)
    refine ⟨i, List.mem_flatMap.2 ⟨pk, hpk, hi⟩, ?_⟩
    rw [(hchunk pk i hi).2, if_pos hlast]

/-- Messages with different keys. -/
structure Messages where
  list : List Message
  nodup : (list.map Message.key).Nodup

/-- The messages as a receiver is to see them that expects `expected n` chunks of a message of `n`
bytes. -/
def Messages.plan (expected : ℕ → ℤ) (ms : Messages) : Plan Message MsgKey UInt8 RemoteEvent where
  messages := ms.list
  key := Message.key
  nodup := ms.nodup
  size := Message.size
  payload := Message.remoteEvent
  events := Message.events
  expected m := expected m.size

theorem Messages.plan_key (expected : ℕ → ℤ) (ms : Messages) (m : Message) :
    (ms.plan expected).key m = m.key := rfl

theorem Messages.plan_expected (expected : ℕ → ℤ) (ms : Messages) (m : Message) :
    (ms.plan expected).expected m = expected m.size := rfl

section

variable {α : Type*} (info : α → ChunkInfo) (expected : ℕ → ℤ)

/-- What is written on an arriving chunk. -/
def chunkLabels : Labels α MsgKey UInt8 where
  key a := (info a).key
  data a := (info a).remoteEvent
  expected a := expected (info a).totalSize

@[simp] theorem chunkLabels_key (a : α) : (chunkLabels info expected).key a = (info a).key := rfl

/-- A table of entries is that of a desk. -/
theorem HashEntry.entry_add (entry : Option HashEntry) (payload : List UInt8) :
    ((entry.map fun e => (⟨e.numChunks, e.remoteEventData⟩ : Entry UInt8)).getD ⟨0, []⟩).add
      payload = ⟨((entry.getD .empty).add payload).numChunks,
        ((entry.getD .empty).add payload).remoteEventData⟩ := by
  cases entry with
  | none => simp [HashEntry.add, HashEntry.withPayload, HashEntry.empty, Entry.add]
  | some e =>
    by_cases hdata : e.remoteEventData = [] <;>
      simp [HashEntry.add, HashEntry.withPayload, Entry.add, hdata, keep_of_ne]

/-- What is issued when a chunk completes a message with the payload `data`; the answer to a pull
takes `reply a n` as its payload of `n` bytes. -/
def emitFor (reply : α → ℕ → List UInt8) (a : α) (data : List UInt8) : List RemoteEvent :=
  if data = [] then []
  else if (info a).isPull then
    [.reply (info a).senderMnLp (info a).senderLp (info a).pullSize (info a).msgStartTime
      (reply a data.length)]
  else [.push (info a).finalDestGid data]

end

section

variable {α : Type*} {info : α → ChunkInfo} {expected : ℕ → ℤ} {reply : α → ℕ → List UInt8}
  {ms : Messages} {dest : ℕ} {num : Message → ℕ} {sent : Message → List ChunkInfo}
  {as : List α} {m : Message}

section

variable (hcut : ∀ m ∈ ms.list, m.IsCut dest (num m) (sent m))
include hcut

theorem Messages.exists_isChunk
    (hperm : (as.map info).Perm (ms.list.flatMap sent)) {a : α} (ha : a ∈ as) :
    ∃ m ∈ ms.list, m.IsChunk dest (info a) := by
  obtain ⟨m, hm, hi⟩ := List.mem_flatMap.1 (hperm.mem_iff.1 (List.mem_map_of_mem ha))
  exact ⟨m, hm, (hcut m hm).isChunk _ hi⟩

theorem Messages.length_partsOf
    (hperm : (as.map info).Perm (ms.list.flatMap sent)) (hm : m ∈ ms.list) :
    ((chunkLabels info expected).partsOf m.key as).length = num m := by
  have hcount : ((chunkLabels info expected).partsOf m.key as).length =
      (as.map info).countP fun i => i.key = m.key := by
    rw [Labels.partsOf, ← List.countP_eq_length_filter, List.countP_map]
    rfl
  rw [hcount, hperm.countP_eq, List.countP_flatMap, ← sum_ite_key ms.nodup num hm]
  refine congrArg List.sum (List.map_congr_left fun m' hm' => ?_)
  rw [Function.comp_apply]
  by_cases hkey : m.key = m'.key
  · rw [if_pos hkey, List.countP_eq_length.2, (hcut m' hm').length]
    intro i hi
    rw [decide_eq_true_eq, ((hcut m' hm').isChunk i hi).key, hkey]
  · rw [if_neg hkey, List.countP_eq_zero]
    intro i hi
    rw [decide_eq_true_eq, ((hcut m' hm').isChunk i hi).key]
    exact fun h => hkey h.symm

theorem Messages.isChunk_of_last
    (hperm : (as.map info).Perm (ms.list.flatMap sent)) (hm : m ∈ ms.list) {a : α}
    (ha : a ∈ ((chunkLabels info expected).partsOf m.key as).getLast?) :
    m.IsChunk dest (info a) := by
  obtain ⟨hmem, hkey⟩ := (mem_partsOf _).1 (List.mem_of_getLast? ha)
  obtain ⟨m', hm', hchunk⟩ := exists_isChunk hcut hperm hmem
  obtain rfl := List.inj_on_of_nodup_map ms.nodup hm' hm (hchunk.key.symm.trans hkey)
  exact hchunk

theorem Messages.arrivals (hperm : (as.map info).Perm (ms.list.flatMap sent)) :
    (ms.plan expected).Arrivals (chunkLabels info expected) (fun a => (info a).totalSize) as := by
  have hpayload : ∀ m ∈ ms.list, ∃ a ∈ (chunkLabels info expected).partsOf m.key as,
      (info a).remoteEvent = m.remoteEvent := by
    intro m hm
    obtain ⟨i, hi, hdata⟩ := (hcut m hm).exists_payload
    obtain ⟨a, ha, rfl⟩ := List.mem_map.1 (hperm.mem_iff.2 (List.mem_flatMap.2 ⟨m, hm, hi⟩))
    exact ⟨a, (mem_partsOf _).2 ⟨ha, ((hcut m hm).isChunk _ hi).key⟩, hdata⟩
  constructor
  · intro a ha
    obtain ⟨m, hm, hchunk⟩ := exists_isChunk hcut hperm ha
    refine ⟨m, hm, hchunk.key, ?_, hchunk.totalSize, hchunk.remoteEvent⟩
    simp only [chunkLabels, Messages.plan, hchunk.totalSize]
  · intro m hm
    obtain ⟨a, ha, -⟩ := hpayload m hm
    exact List.ne_nil_of_mem ha
  · exact fun m hm _ => hpayload m hm

end

theorem emitFor_eq_iff {a : α} (h : m.IsChunk dest (info a)) :
    emitFor info reply a m.remoteEvent = m.events ↔ (m.req.isPull = true → m.remoteEvent ≠ [] →
      reply a m.remoteEvent.length = m.remoteEvent) := by
  have hsrc : (info a).senderLp = m.req.srcLp := congrArg MsgKey.senderId h.key
  by_cases hdata : m.remoteEvent = [] <;> by_cases hp : m.req.isPull = true <;>
    simp [emitFor, Message.events, h.finalDestGid, h.senderMnLp, hsrc, h.isPull, h.pullSize,
      h.msgStartTime, hdata, hp]

/-- **When each message is finished once.**  A receiver that keeps a desk does so exactly if it
expects as many chunks of a message as there are, refuses none of them, and the last chunk of a pull
has the payload that the answer takes from it. -/
theorem Messages.exactlyOnce_iff {σ : Type*} {R : Receiver σ α MsgKey UInt8 RemoteEvent} {s : σ}
    (hR : R.KeepsDesk (chunkLabels info expected) (emitFor info reply) fun a => (info a).totalSize)
    (hs : ∀ k, R.table s k = none) (hcut : ∀ m ∈ ms.list, m.IsCut dest (num m) (sent m))
    (hperm : (as.map info).Perm (ms.list.flatMap sent)) :
    ExactlyOnce (chunkLabels info expected) (ms.plan expected)
        (R.seen (chunkLabels info expected) s) as ↔
      (∀ m ∈ ms.list, max 1 (expected m.size) = num m) ∧
      R.run (chunkLabels info expected) s as ≠ none ∧
      ∀ m ∈ ms.list, m.req.isPull = true → m.remoteEvent ≠ [] →
        ∀ a ∈ ((chunkLabels info expected).partsOf m.key as).getLast?,
          reply a m.remoteEvent.length = m.remoteEvent := by
  rw [hR.exactlyOnce_iff hs (arrivals hcut hperm)]
  refine and_congr (forall₂_congr fun m hm => ?_) (and_congr_right fun _ =>
    forall₂_congr fun m hm => ?_)
  · simp only [Messages.plan, length_partsOf hcut hperm hm]
  · constructor
    · intro h hp hdata a ha
      exact (emitFor_eq_iff (isChunk_of_last hcut hperm hm ha)).1 (h a ha) hp hdata
    · intro h a ha
      exact (emitFor_eq_iff (isChunk_of_last hcut hperm hm ha)).2 fun hp hdata => h hp hdata a ha

end

/-! ### Chunks that are accepted -/

/-- **How far a receiver comes** that keeps `I` and counts by category: up to the first chunk that
there is no room for, or whose category finds no slot. -/
theorem run_register {σ α : Type*} {R : Receiver σ α MsgKey UInt8 RemoteEvent}
    {L : Labels α MsgKey UInt8} (stats : σ → StatsArray) (category : α → String) {I : σ → Prop}
    {Room : List α → Prop} {Here : List α → α → Prop} {s : σ} {as : List α} (hnil : Room [])
    (hsnoc : ∀ pre a, Room (pre ++ [a]) ↔ Room pre ∧ Here pre a) (hinit : I s)
    (hstep : ∀ pre a suf x, as = pre ++ a :: suf → R.run L s pre = some x → I x.1 →
      match R.step x.1 a with
      | some y => Here pre a ∧ I y.1 ∧ ∃ i st, findStats (stats x.1) (category a) = some i ∧
          st.category = category a ∧ stats y.1 = Function.update (stats x.1) i st
      | none => Here pre a → findStats (stats x.1) (category a) = none)
    {pre suf : List α} (hpre : as = pre ++ suf) :
    (∀ x, R.run L s pre = some x → Room pre ∧ I x.1 ∧ ∃ names,
      (stats s).register (pre.map category) = some names ∧ (stats x.1).SameNames names) ∧
    (R.run L s pre = none → ¬ (Room pre ∧ (stats s).HasRoomFor (pre.map category))) := by
  induction pre using List.reverseRecOn generalizing suf with
  | nil =>
    refine ⟨fun x hx => ?_, fun hx => by cases hx⟩
    cases hx
    exact ⟨hnil, hinit, _, rfl, fun i => rfl⟩
  | append_singleton pre a ih =>
    have hpre' : as = pre ++ a :: suf := by simpa using hpre
    obtain ⟨hsome, hnone⟩ := ih hpre'
    rw [Receiver.run_snoc, hsnoc, List.map_append, List.map_singleton, StatsArray.HasRoomFor,
      StatsArray.register_snoc]
    cases hx : R.run L s pre with
    | none =>
      refine ⟨fun x h => (by cases h), fun _ h => hnone hx ⟨h.1.1, ?_⟩⟩
      rw [← StatsArray.register_snoc] at h
      exact StatsArray.HasRoomFor.of_append h.2
    | some x =>
      obtain ⟨hroom, hinv, names, hreg, hnames⟩ := hsome x hx
      have hnext := hstep pre a suf x hpre' hx hinv
      rw [findStats_congr hnames] at hnext
      rw [Option.bind_some, hreg, Option.bind_some, updateStats]
      cases hy : R.step x.1 a with
      | none =>
        rw [hy] at hnext
        refine ⟨fun x h => (by cases h), fun _ h => h.2 ?_⟩
        rw [hnext h.1.2, Option.map_none]
      | some y =>
        rw [hy] at hnext
        obtain ⟨hhere, hinv, i, st, hi, hst, hstats⟩ := hnext
        refine ⟨fun x h => ?_, fun h => by cases h⟩
        obtain rfl := Option.some.inj h
        refine ⟨⟨hroom, hhere⟩, hinv, _, by rw [hi]; rfl, ?_⟩
        rw [hstats]
        exact hnames.update i hst

end CodesSim
