import CodesSim.Dally.Router
import CodesSim.Lib.Network
import CodesSim.Mapping.RoundTrip
import CodesSim.Sched.Packets
import Mathlib.Algebra.Order.BigOperators.Group.Finset

/-!
# Messages are put together again

The scheduler cuts a message into packets and `packet_generate` cuts a packet into chunks.  The
chunks may arrive in any order.  The receiver keeps what is missing of a packet
(`remaining_sz_packets`) and, for a message, the number of packets that are not complete
(`rank_tbl`); the last chunk of the last packet makes it issue the remote event.

The state of a message is determined by how many chunks of each packet have arrived
(`Message.entry`, `Message.remaining`).  `messageArrive_spec` and `packetArrive_spec` say that an
arriving chunk moves from one such state to the next.  `messages_delivered` is the result for runs:
it needs that the chunks of a message, counted packet by packet, are no more than the chunks of the
whole message (`Message.Fits`), which fails if the packet size is not a multiple of the chunk size.
-/

namespace CodesSim.Dally

open Function

/-! ### From the request to the chunks -/

/-- `dragonfly_dally_packet_event`: the message with which a packet of a request is handed to the
terminal; `self` and `dest` are the terminals that belong to the LPs. -/
def packetEvent (env : Env) (selfLp : Lpid) (self dest : ℕ) (req : Request) (packetSize : UInt64)
    (remoteEvent selfEvent : Option (List UInt8)) (isLastPckt : Bool) : Msg :=
  { env.blank with
    category := req.category
    finalDestGid := req.finalDestLp
    totalSize := req.msgSize.toNat % 2 ^ 32
    senderLp := req.srcLp
    senderMnLp := selfLp
    packetSize := packetSize.toNat % 2 ^ 32
    type := .tGenerate
    destTerminalLpid := .terminal dest
    dfdallySrcTerminalId := self
    dfdallyDestTerminalId := dest
    messageId := req.msgId.toNat
    isPull := req.isPull
    pullSize := req.pullSize.toNat % 2 ^ 32
    railId := req.queueOffset
    remoteEvent := if isLastPckt ∧ req.remoteEventSize > 0 then remoteEvent.getD [] else []
    localEvent := if isLastPckt ∧ req.selfEventSize > 0 then selfEvent.getD [] else [] }

/-- What the receiver needs to know about a chunk. -/
structure ChunkInfo where
  category : String
  packetId : ℕ
  messageId : ℕ
  (senderLp senderMnLp finalDestGid : Lpid)
  srcTerminal : ℕ
  destTerminal : ℕ
  destTerminalLpid : LpName
  totalSize : ℕ
  packetSize : ℕ
  remoteEvent : List UInt8
  isPull : Bool
  pullSize : ℕ
  chunkId : ℕ

def Msg.info (msg : Msg) : ChunkInfo where
  category := msg.category
  packetId := msg.packetId
  messageId := msg.messageId
  senderLp := msg.senderLp
  senderMnLp := msg.senderMnLp
  finalDestGid := msg.finalDestGid
  srcTerminal := msg.dfdallySrcTerminalId
  destTerminal := msg.dfdallyDestTerminalId
  destTerminalLpid := msg.destTerminalLpid
  totalSize := msg.totalSize
  packetSize := msg.packetSize
  remoteEvent := msg.remoteEvent
  isPull := msg.isPull
  pullSize := msg.pullSize
  chunkId := msg.chunkId

/-- A message for a terminal: the request, its payload, the LP and the terminal that send it and the
numbers that its packets get there. -/
structure Message where
  req : Request
  remoteEvent : List UInt8
  senderMnLp : Lpid
  src : ℕ
  packetId : ℕ → ℕ

namespace Message

variable (p : Param) (m : Message)

def size : ℕ := m.req.msgSize.toNat

def numPackets : ℕ := CodesSim.numPackets m.size p.packetSize

/-- Size of a packet. -/
def packetSize (i : ℕ) : ℕ := (packetAt m.size p.packetSize i).size

/-- The number of chunks of a packet. -/
def numChunks (i : ℕ) : ℕ := numChunksFor (m.packetSize p i % 2 ^ 32) p.chunkSize

def rankKey : RankKey := ⟨m.req.msgId.toNat, m.req.srcLp⟩

def packetKey (i : ℕ) : PacketKey := ⟨m.packetId i, m.src⟩

/-- Chunk `j` of packet `i` on its way to terminal `dest`. -/
def chunkInfo (dest i j : ℕ) : ChunkInfo where
  category := m.req.category
  packetId := m.packetId i
  messageId := m.req.msgId.toNat
  senderLp := m.req.srcLp
  senderMnLp := m.senderMnLp
  finalDestGid := m.req.finalDestLp
  srcTerminal := m.src
  destTerminal := dest
  destTerminalLpid := .terminal dest
  totalSize := m.size % 2 ^ 32
  packetSize := m.packetSize p i % 2 ^ 32
  remoteEvent := if i + 1 = m.numPackets p then m.remoteEvent else []
  isPull := m.req.isPull
  pullSize := m.req.pullSize.toNat % 2 ^ 32
  chunkId := j

/-- `msg` is chunk `j` of packet `i` as it arrives at terminal `dest`. -/
structure IsChunk (dest i j : ℕ) (msg : Msg) : Prop where
  type : msg.type = .tArrive
  src : msg.srcTerminalId = .terminal m.src
  info : msg.info = m.chunkInfo p dest i j

/-- The remote event of a message: its payload for the destination, or the reply to a pull. -/
def events : List Out :=
  if m.remoteEvent = [] then []
  else if m.req.isPull then
    [.pull m.senderMnLp m.req.srcLp (m.req.pullSize.toNat % 2 ^ 32) 0 m.remoteEvent]
  else [.server m.req.finalDestLp 0 m.remoteEvent]

end Message

/-! ### The state of a message -/

section

variable {p : Param} {m : Message} {msg : Msg} {dest i j : ℕ}

theorem Msg.rankKey_eq (hmsg : msg.info = m.chunkInfo p dest i j) : msg.rankKey = m.rankKey := by
  have hid : msg.messageId = m.req.msgId.toNat := congrArg ChunkInfo.messageId hmsg
  have hsender : msg.senderLp = m.req.srcLp := congrArg ChunkInfo.senderLp hmsg
  rw [Msg.rankKey, hid, hsender, Message.rankKey]

theorem Msg.packetKey_eq (hmsg : msg.info = m.chunkInfo p dest i j) :
    msg.packetKey = m.packetKey i := by
  have hid : msg.packetId = m.packetId i := congrArg ChunkInfo.packetId hmsg
  have hsrc : msg.dfdallySrcTerminalId = m.src := congrArg ChunkInfo.srcTerminal hmsg
  rw [Msg.packetKey, hid, hsrc, Message.packetKey]

end

namespace Message

variable (p : Param) (m : Message)

/-- **The sizes that the code can handle.**  The size of the message fits in 32 bits, also when it
is rounded up to chunks, and cutting it into packets first does not give more chunks. -/
structure Fits : Prop where
  size_le : m.size + p.chunkSize ≤ 2 ^ 32
  sum_numChunks_le : ∑ i ∈ Finset.range (m.numPackets p), m.numChunks p i ≤
    numChunksFor m.size p.chunkSize
  /-- The counters are 32-bit integers. -/
  sum_numChunks_lt : ∑ i ∈ Finset.range (m.numPackets p), m.numChunks p i < 2 ^ 31

/-- What is missing of packet `i` when `c` of its chunks have arrived. -/
def remaining (i c : ℕ) : Option ℕ :=
  if c = 0 ∨ c = m.numChunks p i then none else some (m.packetSize p i - c * p.chunkSize)

/-- Chunks that have arrived, `cnt i` of packet `i`. -/
def arrived (cnt : ℕ → ℕ) : ℕ := ∑ i ∈ Finset.range (m.numPackets p), cnt i

/-- Packets that are not complete. -/
def missing (cnt : ℕ → ℕ) : ℕ :=
  ∑ i ∈ Finset.range (m.numPackets p), if cnt i = m.numChunks p i then 0 else 1

/-- The table entry of a message of which `cnt i` chunks of packet `i` have arrived. -/
def entryAt (cnt : ℕ → ℕ) : HashEntry where
  key := m.rankKey
  numChunks := m.arrived p cnt
  remainingPackets := m.missing p cnt
  remoteEventData := if cnt (m.numPackets p - 1) = 0 then [] else m.remoteEvent

/-- There is an entry while some chunks have arrived and some have not. -/
def entry (cnt : ℕ → ℕ) : Option HashEntry :=
  if m.arrived p cnt = 0 ∨ m.missing p cnt = 0 then none else some (m.entryAt p cnt)

variable {p m}

theorem numPackets_pos : 0 < m.numPackets p := CodesSim.numPackets_pos ..

theorem packetSize_le {i : ℕ} (hP : 0 < p.packetSize) (hi : i < m.numPackets p) :
    m.packetSize p i ≤ m.size := by
  have hle := mul_le_of_lt_numPackets hP hi
  rw [packetSize]
  by_cases hlast : i + 1 = CodesSim.numPackets m.size p.packetSize
  · simp only [packetAt, hlast, decide_true, if_true]
    omega
  · -- there is a packet behind
    rw [packetAt_size_of_ne hlast]
    rw [numPackets] at hi
    have := mul_le_of_lt_numPackets hP
      (show i + 1 < CodesSim.numPackets m.size p.packetSize by omega)
    rw [Nat.add_mul] at this
    omega

theorem packetSize_le_param (hP : 0 < p.packetSize) (i : ℕ) :
    m.packetSize p i ≤ p.packetSize := by
  rw [packetSize]
  by_cases hlast : i + 1 = CodesSim.numPackets m.size p.packetSize
  · have hle := (numPackets_le_iff hP i).1 hlast.ge
    rw [Nat.add_mul] at hle
    simp only [packetAt, hlast, decide_true, if_true]
    omega
  · rw [packetAt_size_of_ne hlast]

theorem Fits.packetSize_mod (h : m.Fits p) (hP : 0 < p.packetSize) {i : ℕ}
    (hi : i < m.numPackets p) : m.packetSize p i % 2 ^ 32 = m.packetSize p i := by
  have := packetSize_le hP hi
  have := h.size_le
  have := p.chunkSize_pos
  exact Nat.mod_eq_of_lt (by omega)

theorem Fits.size_mod (h : m.Fits p) : m.size % 2 ^ 32 = m.size := by
  have := h.size_le
  have := p.chunkSize_pos
  exact Nat.mod_eq_of_lt (by omega)

theorem Fits.numChunks_eq (h : m.Fits p) (hP : 0 < p.packetSize) {i : ℕ}
    (hi : i < m.numPackets p) : m.numChunks p i = if m.packetSize p i = 0 then 1 else
      (m.packetSize p i + p.chunkSize - 1) / p.chunkSize := by
  have := packetSize_le hP hi
  have := h.size_le
  have := p.chunkSize_pos
  rw [numChunks, h.packetSize_mod hP hi, numChunksFor]
  split
  · rfl
  · rw [Nat.mod_eq_of_lt (by omega)]

theorem Fits.lt_numChunks_iff (h : m.Fits p) (hP : 0 < p.packetSize) {i : ℕ}
    (hi : i < m.numPackets p) {c : ℕ} (hc : 0 < c) :
    c < m.numChunks p i ↔ c * p.chunkSize < m.packetSize p i := by
  rw [h.numChunks_eq hP hi]
  split
  · omega
  · rw [Nat.lt_iff_add_one_le, Nat.le_div_iff_mul_le p.chunkSize_pos, Nat.add_mul]
    have := p.chunkSize_pos
    omega

theorem Fits.numChunks_pos (h : m.Fits p) (hP : 0 < p.packetSize) {i : ℕ}
    (hi : i < m.numPackets p) : 0 < m.numChunks p i := by
  have := p.chunkSize_pos
  rw [h.numChunks_eq hP hi]
  split
  · exact Nat.one_pos
  · exact Nat.div_pos (by omega) this

/-- A chunk is taken off a size that fits in an `int`. -/
theorem toNat_sub_min {n : ℕ} (h : n < 2 ^ 31) (chunkSize : ℕ) :
    (((n : ℤ) - min (chunkSize : ℤ) (CodesMapping.wrapInt n)) % 2 ^ 32).toNat = n - chunkSize := by
  rw [CodesMapping.wrapInt_natCast h]
  omega

theorem Fits.remainingAfter (h : m.Fits p) (hP : 0 < p.packetSize)
    (hint : p.packetSize < 2 ^ 31) {i c : ℕ}
    (hi : i < m.numPackets p) (hc : c < m.numChunks p i) {msg : Msg}
    (hmsg : msg.packetSize = m.packetSize p i) :
    Dally.remainingAfter p (m.remaining p i c) msg =
      (m.remaining p i (c + 1), decide (c + 1 = m.numChunks p i)) := by
  have hlt := h.lt_numChunks_iff hP hi (show 0 < c + 1 by omega)
  have hnext : c + 1 = m.numChunks p i ↔ m.packetSize p i ≤ (c + 1) * p.chunkSize := by omega
  rw [Nat.add_mul] at hlt hnext
  rw [remaining, remaining]
  by_cases h0 : c = 0
  · subst h0
    by_cases hlast : 0 + 1 = m.numChunks p i
    · have := hnext.1 hlast
      simp [Dally.remainingAfter, hmsg, ← hlast]
      omega
    · have : p.chunkSize < m.packetSize p i := by omega
      simp [Dally.remainingAfter, hmsg, hlast, this]
  · have hc' := (h.lt_numChunks_iff hP hi (Nat.pos_of_ne_zero h0)).1 hc
    rw [if_neg (by omega)]
    have hle := packetSize_le_param (m := m) hP i
    have hnext' : c + 1 = m.numChunks p i ↔ m.packetSize p i - (c + 1) * p.chunkSize = 0 := by
      rw [Nat.add_mul, Nat.sub_eq_zero_iff_le]
      exact hnext
    have hrest := toNat_sub_min (n := m.packetSize p i - c * p.chunkSize)
      (lt_of_le_of_lt ((Nat.sub_le _ _).trans (packetSize_le_param hP i)) hint) p.chunkSize
    rw [Nat.sub_sub, ← Nat.succ_mul] at hrest
    simp only [Dally.remainingAfter, hrest]
    by_cases hlast : c + 1 = m.numChunks p i
    · rw [if_pos (hnext'.1 hlast), if_pos (.inr hlast), decide_eq_true hlast]
    · have hne : ¬ (c + 1 = 0 ∨ c + 1 = m.numChunks p i) := by simp [hlast]
      rw [if_neg (mt hnext'.2 hlast), if_neg hne, decide_eq_false hlast]

section Counts

variable {cnt : ℕ → ℕ} {i : ℕ} (hi : i < m.numPackets p)

include hi

theorem arrived_update :
    m.arrived p (update cnt i (cnt i + 1)) = m.arrived p cnt + 1 := by
  have := LpSystem.sum_update (fun _ n => n) cnt (Finset.mem_range.2 hi) (cnt i + 1)
  rw [arrived, arrived]
  omega

theorem missing_update (hlt : cnt i < m.numChunks p i) :
    m.missing p (update cnt i (cnt i + 1)) +
      (if cnt i + 1 = m.numChunks p i then 1 else 0) = m.missing p cnt := by
  have := LpSystem.sum_update (fun i n => if n = m.numChunks p i then 0 else 1) cnt
    (Finset.mem_range.2 hi) (cnt i + 1)
  rw [if_neg (show cnt i ≠ m.numChunks p i by omega)] at this
  rw [missing, missing]
  by_cases hlast : cnt i + 1 = m.numChunks p i
  · rw [if_pos hlast] at this ⊢
    omega
  · rw [if_neg hlast] at this ⊢
    omega

theorem missing_pos (hlt : cnt i < m.numChunks p i) : m.missing p cnt ≠ 0 := by
  intro h0
  have := Finset.sum_eq_zero_iff.1 h0 i (Finset.mem_range.2 hi)
  rw [if_neg (by omega)] at this
  cases this

end Counts

theorem missing_eq_zero {cnt : ℕ → ℕ} :
    m.missing p cnt = 0 ↔ ∀ i < m.numPackets p, cnt i = m.numChunks p i := by
  simp [missing, Finset.sum_eq_zero_iff]

theorem arrived_eq_zero {cnt : ℕ → ℕ} :
    m.arrived p cnt = 0 ↔ ∀ i < m.numPackets p, cnt i = 0 := by
  simp [arrived, Finset.sum_eq_zero_iff]

/-- Rounding up by the remainder. -/
theorem div_add_ite_mod {n d : ℕ} (hd : 0 < d) :
    n / d + (if n % d = 0 then 0 else 1) = (n + d - 1) / d := by
  have hlt := Nat.mod_lt n hd
  have hsum : n + d - 1 = n % d + d - 1 + d * (n / d) := by
    have := Nat.mod_add_div n d
    omega
  rw [hsum, Nat.add_mul_div_left _ _ hd, add_comm]
  by_cases h0 : n % d = 0
  · rw [if_pos h0, h0, Nat.div_eq_of_lt (show 0 + d - 1 < d by omega)]
  · rw [if_neg h0, show n % d + d - 1 = n % d - 1 + d by omega, Nat.add_div_right _ hd,
      Nat.div_eq_of_lt (show n % d - 1 < d by omega)]

theorem Fits.newEntry (h : m.Fits p) (hP : 0 < p.packetSize) {msg : Msg} {dest i j : ℕ}
    (hmsg : msg.info = m.chunkInfo p dest i j) {cnt : ℕ → ℕ}
    (hcnt : ∀ i < m.numPackets p, cnt i = 0) : Dally.newEntry p msg = m.entryAt p cnt := by
  have hkey := Msg.rankKey_eq hmsg
  have htotal : msg.totalSize = m.size :=
    (show msg.totalSize = m.size % 2 ^ 32 from congrArg ChunkInfo.totalSize hmsg).trans h.size_mod
  have harrived : m.arrived p cnt = 0 := arrived_eq_zero.2 hcnt
  have hmissing : m.missing p cnt = m.numPackets p := by
    rw [missing, Finset.sum_congr rfl fun i hi => if_neg ?_]
    · simp
    · have hi := Finset.mem_range.1 hi
      have := h.numChunks_pos hP hi
      rw [hcnt i hi]
      omega
  have hlast : cnt (m.numPackets p - 1) = 0 :=
    hcnt _ (Nat.sub_lt (numPackets_pos (p := p) (m := m)) Nat.one_pos)
  simp only [Dally.newEntry, entryAt, hkey, htotal, harrived, hmissing, hlast, if_true,
    Nat.cast_zero, HashEntry.mk.injEq, true_and, and_true]
  rw [numPackets, CodesSim.numPackets, ← div_add_ite_mod hP]
  generalize m.size / p.packetSize + (if m.size % p.packetSize = 0 then 0 else 1) = n
  split <;> omega

theorem Fits.entry_getD (h : m.Fits p) (hP : 0 < p.packetSize) {msg : Msg} {dest i j : ℕ}
    (hmsg : msg.info = m.chunkInfo p dest i j) {cnt : ℕ → ℕ} (hmissing : m.missing p cnt ≠ 0) :
    (m.entry p cnt).getD (Dally.newEntry p msg) = m.entryAt p cnt := by
  rw [entry]
  by_cases h0 : m.arrived p cnt = 0
  · rw [if_pos (.inl h0), Option.getD_none]
    exact h.newEntry hP hmsg (arrived_eq_zero.1 h0)
  · rw [if_neg (not_or.2 ⟨h0, hmissing⟩), Option.getD_some]

theorem chunkArrived_entryAt {msg : Msg} {dest i j : ℕ} (hmsg : msg.info = m.chunkInfo p dest i j)
    {cnt : ℕ → ℕ} (hi : i < m.numPackets p) (hlt : cnt i < m.numChunks p i) :
    (m.entryAt p cnt).chunkArrived msg (decide (cnt i + 1 = m.numChunks p i)) =
      m.entryAt p (update cnt i (cnt i + 1)) := by
  have hremote : msg.remoteEvent = if i + 1 = m.numPackets p then m.remoteEvent else [] :=
    congrArg ChunkInfo.remoteEvent hmsg
  have hpos := numPackets_pos (p := p) (m := m)
  have hmissing := missing_update hi hlt
  have hdata : (if (m.entryAt p cnt).remoteEventData = [] then msg.remoteEvent
      else (m.entryAt p cnt).remoteEventData) =
        if update cnt i (cnt i + 1) (m.numPackets p - 1) = 0 then []
          else m.remoteEvent := by
    rw [hremote, entryAt]
    by_cases hlast : i + 1 = m.numPackets p
    · obtain rfl : i = m.numPackets p - 1 := by omega
      rw [update_self, if_pos hlast]
      by_cases h0 : cnt (m.numPackets p - 1) = 0 <;> by_cases hnil : m.remoteEvent = [] <;>
        simp [h0, hnil]
    · rw [update_of_ne (show m.numPackets p - 1 ≠ i by omega), if_neg hlast]
      by_cases h0 : cnt (m.numPackets p - 1) = 0 <;> by_cases hnil : m.remoteEvent = [] <;>
        simp [h0, hnil]
  rw [HashEntry.chunkArrived, hdata]
  simp only [entryAt, arrived_update hi, HashEntry.mk.injEq, true_and, and_true]
  refine ⟨by push_cast; rfl, ?_⟩
  by_cases hlast : cnt i + 1 = m.numChunks p i
  · rw [if_pos hlast] at hmissing
    rw [if_pos (decide_eq_true hlast)]
    omega
  · rw [if_neg hlast] at hmissing
    rw [if_neg (by simpa using hlast)]
    omega

theorem arrived_le {cnt : ℕ → ℕ} (hcnt : ∀ i < m.numPackets p, cnt i ≤ m.numChunks p i) :
    m.arrived p cnt ≤ ∑ i ∈ Finset.range (m.numPackets p), m.numChunks p i :=
  Finset.sum_le_sum fun i hi => hcnt i (Finset.mem_range.1 hi)

end Message

/-! ### Arrival of a chunk -/

/-- The events for other LPs than those of the network. -/
def remoteEvents (outs : List Out) : List Out :=
  outs.filter fun
    | .server .. | .pull .. => true
    | _ => false

@[simp] theorem remoteEvents_append (l l' : List Out) :
    remoteEvents (l ++ l') = remoteEvents l ++ remoteEvents l' := List.filter_append ..

section

variable {p : Param} {env : Env} {m : Message} {msg : Msg} {dest i j : ℕ} {cnt : ℕ → ℕ}

theorem events_eq (hmsg : msg.info = m.chunkInfo p dest i j)
    (hpull : m.req.isPull = true → i + 1 = m.numPackets p) :
    remoteEvents (if m.remoteEvent = [] then [] else [sendRemoteEvent env msg m.remoteEvent]) =
      m.events := by
  have hispull : msg.isPull = m.req.isPull := congrArg ChunkInfo.isPull hmsg
  have hsize : msg.pullSize = m.req.pullSize.toNat % 2 ^ 32 := congrArg ChunkInfo.pullSize hmsg
  have hmn : msg.senderMnLp = m.senderMnLp := congrArg ChunkInfo.senderMnLp hmsg
  have hsender : msg.senderLp = m.req.srcLp := congrArg ChunkInfo.senderLp hmsg
  have hfinal : msg.finalDestGid = m.req.finalDestLp := congrArg ChunkInfo.finalDestGid hmsg
  have hremote : msg.remoteEvent = if i + 1 = m.numPackets p then m.remoteEvent else [] :=
    congrArg ChunkInfo.remoteEvent hmsg
  rw [Message.events]
  by_cases hnil : m.remoteEvent = []
  · simp [hnil, remoteEvents]
  · rw [if_neg hnil, if_neg hnil, sendRemoteEvent, hispull]
    by_cases hp : m.req.isPull = true
    · rw [if_pos (hpull hp)] at hremote
      have hdata : msg.edata env m.remoteEvent.length = m.remoteEvent := by
        rw [Msg.edata, hremote]
        refine List.ext_getElem (by simp) fun k hk hk' => ?_
        simp [List.getElem?_eq_getElem hk']
      rw [if_pos hp, if_pos hp, hdata, hmn, hsender, hsize]
      rfl
    · rw [if_neg hp, if_neg hp, hfinal]
      rfl

/-- **A chunk arrives: its message.** -/
theorem messageArrive_spec {s : Terminal} {bf : Bf} (outs : List Out) (hP : 0 < p.packetSize)
    (hfits : m.Fits p) (hmsg : msg.info = m.chunkInfo p dest i j) (hi : i < m.numPackets p)
    (hlt : cnt i < m.numChunks p i) (hcnt : ∀ i < m.numPackets p, cnt i ≤ m.numChunks p i)
    (hfound : s.rankTbl m.rankKey = m.entry p cnt)
    (hroom : m.entry p cnt = none → s.rankTblPop + 1 < hashTableSize)
    (hpull : m.req.isPull = true → m.missing p (update cnt i (cnt i + 1)) = 0 →
      i + 1 = m.numPackets p) :
    ∃ res, messageArrive p env s msg bf (decide (cnt i + 1 = m.numChunks p i)) outs = some res ∧
      res.state.rankTbl = update s.rankTbl m.rankKey
        (m.entry p (update cnt i (cnt i + 1))) ∧
      res.state.rankTblPop = s.rankTblPop + (if (m.entry p cnt).isSome then 0 else 1) -
        (if (m.entry p (update cnt i (cnt i + 1))).isSome then 0 else 1) ∧
      res.state.remainingSzPackets = s.remainingSzPackets ∧ res.state.zombies = s.zombies ∧
      remoteEvents res.outs = remoteEvents outs ++
        if m.missing p (update cnt i (cnt i + 1)) = 0 then m.events else [] := by
  have hkey := Msg.rankKey_eq hmsg
  have hmissing := Message.missing_pos hi hlt
  have harrived : m.arrived p (update cnt i (cnt i + 1)) = m.arrived p cnt + 1 :=
    Message.arrived_update hi
  have hentry := Message.chunkArrived_entryAt hmsg hi hlt
  have htotal : msg.totalSize = m.size :=
    (show msg.totalSize = m.size % 2 ^ 32 from congrArg ChunkInfo.totalSize hmsg).trans
      hfits.size_mod
  set cnt' := update cnt i (cnt i + 1) with hcnt'
  have hle : m.arrived p cnt' ≤ ∑ i ∈ Finset.range (m.numPackets p), m.numChunks p i := by
    refine Message.arrived_le fun k hk => ?_
    by_cases hki : k = i
    · rw [hcnt', hki, update_self]
      omega
    · rw [hcnt', update_of_ne hki]
      exact hcnt k hk
  have hnotes : ∀ (c : Prop) [Decidable c],
    remoteEvents (if c then [latencyNote msg] else []) = [] := by
    intro c _
    split <;> rfl
  simp only [messageArrive, hkey, hfound, hfits.entry_getD hP hmsg hmissing, hentry]
  rw [if_neg (by
    rintro ⟨hnone, h0 | hfull⟩
    · omega
    · have := hroom hnone
      omega), if_neg (by
    have := hfits.sum_numChunks_lt
    simp only [Message.entryAt, not_not]
    omega)]
  have hpop : (if m.entry p cnt = none then s.rankTblPop + 1 else s.rankTblPop) =
      s.rankTblPop + if (m.entry p cnt).isSome then 0 else 1 := by
    cases m.entry p cnt <;> rfl
  by_cases hlast : m.missing p cnt' = 0
  · -- the message is complete
    have hnone : m.entry p cnt' = none := if_pos (.inr hlast)
    have hdata : (m.entryAt p cnt').remoteEventData = m.remoteEvent := by
      have hall := Message.missing_eq_zero.1 hlast (m.numPackets p - 1)
        (Nat.sub_lt Message.numPackets_pos Nat.one_pos)
      have := hfits.numChunks_pos hP (Nat.sub_lt (Message.numPackets_pos (p := p)) Nat.one_pos)
      exact if_neg (by omega)
    rw [if_neg (by simp [Message.entryAt, hlast]), if_neg (by
      simp only [Message.entryAt, htotal, not_not]
      exact_mod_cast hle.trans hfits.sum_numChunks_le)]
    refine ⟨_, rfl, ?_, ?_, rfl, rfl, ?_⟩
    · rw [hnone]
    · simp only [hpop, hnone, Option.isSome_none, Bool.false_eq_true, if_false]
    · simp only [remoteEvents_append, hnotes, List.append_nil, hdata, if_pos hlast]
      exact congrArg _ (events_eq hmsg fun hp => hpull hp hlast)
  · have hsome : m.entry p cnt' = some (m.entryAt p cnt') :=
      if_neg (not_or.2 ⟨by omega, hlast⟩)
    rw [if_pos (by simpa [Message.entryAt] using hlast)]
    refine ⟨_, rfl, ?_, ?_, rfl, rfl, ?_⟩
    · rw [hsome]
    · simp only [hpop, hsome, Option.isSome_some, if_true, Nat.sub_zero]
    · simp only [remoteEvents_append, hnotes, if_neg hlast]

/-- **A chunk arrives.** -/
theorem packetArrive_spec {self : ℕ} {s : Terminal} (hP : 0 < p.packetSize)
    (hint : p.packetSize < 2 ^ 31) (hfits : m.Fits p)
    (hcategory : findStats s.dragonflyStatsArray msg.category ≠ none)
    (hmsg : m.IsChunk p self i j msg) (hsrc : m.src ≠ self) (hi : i < m.numPackets p)
    (hlt : cnt i < m.numChunks p i) (hcnt : ∀ i < m.numPackets p, cnt i ≤ m.numChunks p i)
    (hzombie : s.zombies (m.packetKey i) = false)
    (hremaining : s.remainingSzPackets (m.packetKey i) = m.remaining p i (cnt i))
    (hfound : s.rankTbl m.rankKey = m.entry p cnt)
    (hroom : m.entry p cnt = none → s.rankTblPop + 1 < hashTableSize)
    (hpull : m.req.isPull = true → m.missing p (update cnt i (cnt i + 1)) = 0 →
      i + 1 = m.numPackets p) :
    ∃ res, packetArrive p env self s msg = some res ∧
      res.state.rankTbl = update s.rankTbl m.rankKey
        (m.entry p (update cnt i (cnt i + 1))) ∧
      res.state.rankTblPop = s.rankTblPop + (if (m.entry p cnt).isSome then 0 else 1) -
        (if (m.entry p (update cnt i (cnt i + 1))).isSome then 0 else 1) ∧
      res.state.remainingSzPackets = update s.remainingSzPackets (m.packetKey i)
        (m.remaining p i (cnt i + 1)) ∧
      res.state.zombies = s.zombies ∧
      remoteEvents res.outs =
        if m.missing p (update cnt i (cnt i + 1)) = 0 then m.events else [] := by
  have hdest : msg.dfdallyDestTerminalId = self := congrArg ChunkInfo.destTerminal hmsg.info
  have hlp : msg.destTerminalLpid = .terminal self :=
    congrArg ChunkInfo.destTerminalLpid hmsg.info
  have hsize : msg.packetSize = m.packetSize p i :=
    (show msg.packetSize = m.packetSize p i % 2 ^ 32 from
      congrArg ChunkInfo.packetSize hmsg.info).trans (hfits.packetSize_mod hP hi)
  have hself : ¬ (msg.dfdallyDestTerminalId ≠ self ∨ msg.destTerminalLpid ≠ .terminal self ∨
      msg.srcTerminalId = .terminal self) := by
    simp [hdest, hlp, hmsg.src, hsrc]
  have hkey := Msg.packetKey_eq hmsg.info
  obtain ⟨k, hk⟩ := Option.ne_none_iff_exists'.1 hcategory
  simp only [packetArrive, if_neg hself, updateStats, hk, Option.bind_some, Option.map_some, hkey,
    hremaining, hfits.remainingAfter hP hint hi hlt hsize, hzombie, Bool.false_eq_true, if_false]
  -- what has been written to the message so far does not matter
  exact messageArrive_spec [arrivalCredit p env msg] hP hfits hmsg.info hi hlt hcnt hfound hroom
    hpull

end

end CodesSim.Dally
