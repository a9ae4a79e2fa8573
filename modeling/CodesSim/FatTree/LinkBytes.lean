import CodesSim.FatTree.Rollback
import CodesSim.Mesh.LinkBytes

/-!
# The bytes on the links of a fat tree

What `switchPacketSend` adds to the traffic of a link, and the time for which it takes the link,
chunk by chunk along a run of the network (`crossings`).

`bytes_add_up_iff` is the result for both networks.
-/

namespace CodesSim

open LinkBytes (Crossing Exact Agree IsPacket)

namespace FatTree

/-- A chunk among what a send event sends on; the time is that of the link but for the lookahead and
the random part. -/
def crossing (env : Env) (s : Switch) (msg : Msg) (s' : Switch) : Out → Option Crossing
  | .event _ _ c =>
    if c.type = .sArrive ∨ c.type = .tArrive then
      some {
        size := c.packetSize
        chunkId := c.chunkId
        trigger := msg.packetSize
        bytes := s'.linkTraffic msg.vcIndex - s.linkTraffic msg.vcIndex
        time := s'.nextOutputAvailableTime msg.vcIndex -
          max (s.nextOutputAvailableTime msg.vcIndex) env.now -
          (env.lookahead + env.lookahead * env.unif s.rngDraws) }
    else none
  | .idle .. | .server .. | .pull .. => none

/-- What a send event puts on a link. -/
def sendCrossings (p : Param) (env : Env) (conf : SwitchConf) (self : ℕ) (s : Switch) (msg : Msg) :
    List Crossing :=
  let r := switchPacketSend p env conf self s msg
  r.outs.filterMap (crossing env s msg r.state)

section

variable (T : Tree)

/-- What a step of the network puts on the link of port `port` of switch `n`. -/
def Tree.stepCrossings (n port : ℕ) (net : Net LpState Event) (l : NetLabel LpName Event Around) :
    List Crossing :=
  match net.event l with
  | some (.switch m, .method msg) =>
    if m = n ∧ msg.type = .sSend ∧ msg.vcIndex = port then
      sendCrossings T.p l.env.env (T.topology.conf n) n (net.nodes (.switch n)) msg
    else []
  | _ => []

/-- What a run puts on the link, in order. -/
def Tree.crossings (n port : ℕ) :
    Net LpState Event → List (NetLabel LpName Event Around) → List Crossing :=
  T.system.machine.observe (T.stepCrossings n port)

end

/-- The chunks that `ft_packet_generate` makes of a packet have crossed a link, each once. -/
def Crosses (p : Param) (packet : Msg) (l : List Crossing) : Prop :=
  (l.map fun x => (x.size, x.chunkId)).Perm
    ((chunksOf p packet).map fun c => (c.packetSize, c.chunkId))

/-- **What a send event puts on a link** counts with its portion. -/
theorem sendCrossings_charged {p : Param} {env : Env} {conf : SwitchConf} {self : ℕ} (s : Switch)
    (msg : Msg) : ∀ x ∈ sendCrossings p env conf self s msg,
      x.Charged p.chunkSize p.headDelay := by
  rw [sendCrossings, switchPacketSend]
  cases s.pendingMsgs msg.vcIndex with
  | nil => exact fun x hx => nomatch hx
  | cons c rest =>
    intro x hx
    obtain ⟨o, ho, hx⟩ := List.mem_filterMap.mp hx
    rcases List.mem_cons.mp ho with rfl | ho
    · have htype : (sentMsg conf self msg.vcIndex c).type = .sArrive ∨
          (sentMsg conf self msg.vcIndex c).type = .tArrive := by
        by_cases hp : conf.ToTerminal msg.vcIndex <;> simp [sentMsg, hp]
      rw [crossing, if_pos htype] at hx
      obtain rfl := Option.some.inj hx
      have hportion : ∀ bytes time, chunkBytes p c (countedChunks p msg c) =
          Crossing.portion p.chunkSize ⟨c.packetSize, c.chunkId, msg.packetSize, bytes, time⟩ :=
        fun _ _ => rfl
      constructor
      · simp only [switchSendChunk, Function.update_self, add_sub_cancel_left]
        exact congrArg Nat.cast (hportion _ _)
      · refine Eq.trans ?_ (congrArg (fun n : ℕ => p.headDelay * (n : STime)) (hportion _ _))
        simp only [switchSendChunk, Function.update_self, Switch.availableAfter]
        ring
    · split_ifs at ho with hrest
      · cases ho
      · rw [List.mem_singleton.mp ho] at hx
        simp [crossing, sSendEvent] at hx

/-- **What a run puts on a link** counts with its portion. -/
theorem crossings_charged (T : Tree) (n port : ℕ) (net : Net LpState Event)
    (ls : List (NetLabel LpName Event Around)) : ∀ x ∈ T.crossings n port net ls,
      x.Charged T.p.chunkSize T.p.headDelay := by
  refine Machine.forall_observe (fun net l x hx => ?_) net ls
  rw [Tree.stepCrossings] at hx
  split at hx
  · split_ifs at hx with h
    · exact sendCrossings_charged _ _ x hx
    · cases hx
  · cases hx

theorem Crosses.isPacket {p : Param} {packet : Msg} {l : List Crossing} (hchunk : 0 < p.chunkSize)
    (hsize : 0 < packet.packetSize) (h : Crosses p packet l) :
    IsPacket p.chunkSize packet.packetSize l := by
  have hnum : numChunks packet.packetSize p.chunkSize =
      if packet.packetSize % p.chunkSize ≠ 0 then packet.packetSize / p.chunkSize + 1
        else packet.packetSize / p.chunkSize :=
    LinkBytes.numChunks_eq hchunk hsize
  refine LinkBytes.isPacket_of_perm ?_ hnum
  simpa [Crosses, chunksOf, Function.comp_def] using h

end FatTree

/-- **The bytes and times of a packet on a link add up** just if the triggers of its last two chunks
agree, in any run of an express mesh and of a fat tree. -/
theorem bytes_add_up_iff (n port : ℕ) (l : List Crossing) :
    (∀ (p : Mesh.Param) (net : Net Mesh.LpState Mesh.Msg)
        (ls : List (NetLabel Mesh.LpName Mesh.Msg Mesh.Env)) (packet : Mesh.Msg),
      l.Sublist (Mesh.crossings p n port net ls) → 0 < packet.packetSize → Mesh.Crosses p packet l →
      (Exact (p.byteDelay port) packet.packetSize l ↔ Agree p.chunkSize packet.packetSize l)) ∧
    ∀ (T : FatTree.Tree) (net : Net FatTree.LpState FatTree.Event)
        (ls : List (NetLabel FatTree.LpName FatTree.Event FatTree.Around)) (packet : FatTree.Msg),
      l.Sublist (T.crossings n port net ls) → 0 < T.p.chunkSize → 0 < packet.packetSize →
      FatTree.Crosses T.p packet l →
      (Exact T.p.headDelay packet.packetSize l ↔ Agree T.p.chunkSize packet.packetSize l) := by
  constructor
  · intro p net ls packet hl hsize hcross
    exact LinkBytes.exact_iff_agree p.chunkSize_pos (hcross.isPacket hsize) fun x hx =>
      Mesh.crossings_charged n port net ls x (hl.subset hx)
  · intro T net ls packet hl hchunk hsize hcross
    exact LinkBytes.exact_iff_agree hchunk (hcross.isPacket hchunk hsize) fun x hx =>
      FatTree.crossings_charged T n port net ls x (hl.subset hx)

namespace Mesh

/-- One router with two terminals and chunks of 2 bytes. -/
def routerOfTwo : Param where
  numCn := 2
  numVcs := 1
  vcSize := 8
  cnVcSize := 8
  chunkSize := 2
  routing := .static
  dimLength := [1]
  gap := 1
  cnDelay := 1
  linkDelay := 1
  creditDelay := 0
  routerDelay := 0
  msgSz := 0
  numCn_pos := Nat.two_pos
  chunkSize_pos := Nat.two_pos
  gap_pos := Nat.one_pos
  length_pos := by decide
  numVcs_pos := Nat.one_pos
  adaptive_vcs := oneVc_static

/-- New events have a size left over in their buffer. -/
def leftOver (size fresh : ℕ) : Env :=
  ⟨0, 0, { (default : Msg) with packetSize := size }, fun _ => 0, fun _ => 0, fun _ => 0,
    fun _ => 0, fresh⟩

/-- A packet of 3 bytes for terminal 1. -/
def threeBytes : Msg :=
  { (default : Msg) with type := .tGenerate, packetSize := 3, destTerminal := 1 }

/-- Terminal 0 sends the packet, and the router passes its two chunks on; what triggers the second
time has `size` left over. -/
def twoChunks (size : ℕ) : List (NetLabel LpName Msg Env) :=
  [.inject (.terminal 0) threeBytes (leftOver 0 0), .deliver 0 (leftOver 0 0),
    .deliver 0 (leftOver 0 0), .deliver 0 (leftOver 0 0), .deliver 2 (leftOver 0 1),
    .deliver 1 (leftOver size 0), .deliver 4 (leftOver 0 0)]

theorem crossings_twoChunks_zero : crossings routerOfTwo 0 1 init (twoChunks 0) =
    [⟨3, 0, 0, 1, 1⟩, ⟨3, 1, 0, 2, 2⟩] := by decide +kernel

theorem crossings_twoChunks_one : crossings routerOfTwo 0 1 init (twoChunks 1) =
    [⟨3, 0, 0, 1, 1⟩, ⟨3, 1, 1, 1, 1⟩] := by decide +kernel

end Mesh

namespace FatTree

/-- A chunk of a packet of 12 bytes for terminal 1 arrives at a switch. -/
def chunkOfTwelve (i : ℕ) : Msg :=
  { (default : Msg) with type := .sArrive, packetSize := 12, chunkId := i, destTerminalId := 1 }

/-- Both chunks of the packet arrive and are passed on. -/
def bothChunks : List (NetLabel LpName Event Around) :=
  [.inject (.switch 0) (.method (chunkOfTwelve 0)) surroundings,
    .inject (.switch 0) (.method (chunkOfTwelve 1)) surroundings, .deliver 1 surroundings,
    .deliver 3 surroundings]

theorem crossings_bothChunks : switchOfTwo.crossings 0 1 switchOfTwo.init bothChunks =
    [⟨12, 0, 0, 4, 0⟩, ⟨12, 1, 0, 8, 0⟩] := by decide +kernel

end FatTree

/-- The bytes add up where both triggers have no size. -/
theorem bytes_add_up_iff_noSize :
    Exact 1 3 (Mesh.crossings Mesh.routerOfTwo 0 1 Mesh.init (Mesh.twoChunks 0)) ∧
    Exact 0 12 (FatTree.switchOfTwo.crossings 0 1 FatTree.switchOfTwo.init FatTree.bothChunks) := by
  constructor
  · have hcross : Mesh.Crosses Mesh.routerOfTwo Mesh.threeBytes
        (Mesh.crossings Mesh.routerOfTwo 0 1 Mesh.init (Mesh.twoChunks 0)) := by
      rw [Mesh.crossings_twoChunks_zero]
      exact .refl _
    refine ((bytes_add_up_iff 0 1 _).1 Mesh.routerOfTwo Mesh.init (Mesh.twoChunks 0) Mesh.threeBytes
      (.refl _) (by decide) hcross).mpr (.inr (.inr ?_))
    rw [Mesh.crossings_twoChunks_zero]
    decide
  · have hcross : FatTree.Crosses FatTree.switchOfTwo.p (FatTree.chunkOfTwelve 0)
        (FatTree.switchOfTwo.crossings 0 1 FatTree.switchOfTwo.init FatTree.bothChunks) := by
      rw [FatTree.crossings_bothChunks]
      exact .refl _
    refine ((bytes_add_up_iff 0 1 _).2 FatTree.switchOfTwo FatTree.switchOfTwo.init
      FatTree.bothChunks
      (FatTree.chunkOfTwelve 0) (.refl _) (by decide) (by decide) hcross).mpr (.inr (.inr ?_))
    rw [FatTree.crossings_bothChunks]
    decide

/-- A packet of 3 bytes counts with 2 on its last link if the second trigger has a size left over
that does not end with a whole chunk. -/
theorem three_bytes_count_two : ¬ ∀ (p : Mesh.Param)
    (ls : List (NetLabel Mesh.LpName Mesh.Msg Mesh.Env)) (n port : ℕ) (packet : Mesh.Msg)
    (l : List Crossing), (∀ x ∈ ls, Mesh.FromOutside x) →
      l.Sublist (Mesh.crossings p n port Mesh.init ls) → 0 < packet.packetSize →
      Mesh.Crosses p packet l → Exact (p.byteDelay port) packet.packetSize l := by
  intro h
  have hcross : Mesh.Crosses Mesh.routerOfTwo Mesh.threeBytes
      (Mesh.crossings Mesh.routerOfTwo 0 1 Mesh.init (Mesh.twoChunks 1)) := by
    rw [Mesh.crossings_twoChunks_one]
    exact .refl _
  have hexact := h Mesh.routerOfTwo (Mesh.twoChunks 1) 0 1 Mesh.threeBytes _
    (by simp [Mesh.twoChunks, Mesh.FromOutside, Mesh.threeBytes]) (.refl _) (by decide) hcross
  rw [Mesh.crossings_twoChunks_one] at hexact
  exact absurd hexact.1 (by decide)

end CodesSim
