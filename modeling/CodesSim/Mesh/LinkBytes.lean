import CodesSim.Base.LinkBytes
import CodesSim.Mesh.Network

/-!
# The bytes on the links of an express mesh

What `routerPacketSend` adds to the traffic of a link, and the time for which it takes the link,
chunk by chunk along a run of the network (`crossings`).
-/

namespace CodesSim.Mesh

open Dll (Links Ends)
open LinkBytes (Crossing IsPacket)

variable (p : Param)

/-- The time that a byte takes on the link of a port. -/
def Param.byteDelay (port : ℕ) : STime := if p.numCn ≤ port then p.linkDelay else p.cnDelay

/-- A chunk among what a send event sends on; the time is that of the link but for the lookahead and
the random part. -/
def crossing (env : Env) (s : Router) (msg : Msg) (s' : Router) : Out → Option Crossing
  | .event _ _ c =>
    if c.type = .rArrive ∨ c.type = .tArrive then
      some {
        size := c.packetSize
        chunkId := c.chunkId
        trigger := msg.packetSize
        bytes := s'.linkTraffic msg.vcIndex - s.linkTraffic msg.vcIndex
        time := s'.nextOutputAvailableTime msg.vcIndex -
          max (s.nextOutputAvailableTime msg.vcIndex) env.now -
          (env.lookahead + env.unif (s'.rngDraws - 2)) }
    else none
  | .idle .. | .server .. | .pull .. => none

/-- What a send event puts on a link. -/
def sendCrossings (env : Env) (self : ℕ) (s : Router) (msg : Msg) : List Crossing :=
  match routerPacketSend p env self s msg with
  | some r => r.outs.filterMap (crossing env s msg r.state)
  | none => []

/-- What a step of the network puts on the link of port `port` of router `n`. -/
def stepCrossings (n port : ℕ) (net : Net LpState Msg) (l : NetLabel LpName Msg Env) :
    List Crossing :=
  match net.event l with
  | some (.router m, msg) =>
    if m = n ∧ msg.type = .rSend ∧ msg.vcIndex = port then
      sendCrossings p l.env n (net.nodes (.router n)) msg
    else []
  | _ => []

/-- What a run puts on the link, in order. -/
def crossings (n port : ℕ) : Net LpState Msg → List (NetLabel LpName Msg Env) → List Crossing :=
  (system p).machine.observe (stepCrossings p n port)

/-- The chunks that `packet_generate` makes of a packet have crossed a link, each once. -/
def Crosses (packet : Msg) (l : List Crossing) : Prop :=
  (l.map fun x => (x.size, x.chunkId)).Perm
    ((chunksOf p packet).map fun c => (c.packetSize, c.chunkId))

variable {p} {env : Env} {self : ℕ}

theorem putOnLink_charged {s s' : Router} {msg msg' : Msg} {a vc : ℕ} {bf : Bf} {outs : List Out}
    {r : Result Router} (h : putOnLink p env self s' msg' a vc bf outs = some r)
    (hport : msg'.vcIndex = msg.vcIndex) (hsize : msg'.packetSize = msg.packetSize)
    (htraffic : s'.linkTraffic = s.linkTraffic)
    (havail : s'.nextOutputAvailableTime = s.nextOutputAvailableTime)
    (houts : ∀ x ∈ outs, crossing env s msg r.state x = none) :
    ∀ x ∈ r.outs.filterMap (crossing env s msg r.state),
      x.Charged p.chunkSize (p.byteDelay msg.vcIndex) := by
  simp only [putOnLink, Option.bind_eq_some_iff, Option.map_eq_some_iff] at h
  obtain ⟨c, -, dest, -, rfl⟩ := h
  intro x hx
  obtain ⟨o, ho, hx⟩ := List.mem_filterMap.mp hx
  rcases List.mem_append.mp ho with ho | ho
  · rw [houts o ho] at hx
    cases hx
  rcases List.mem_pair.mp ho with rfl | rfl
  · have htype : (sentMsg p self msg'.vcIndex vc c.msg).type = .rArrive ∨
        (sentMsg p self msg'.vcIndex vc c.msg).type = .tArrive := by
      by_cases hp : p.numCn ≤ msg'.vcIndex <;> simp [sentMsg, hp]
    rw [crossing, if_pos htype] at hx
    obtain rfl := Option.some.inj hx
    have hportion : ∀ bytes time, chunkBytes p c.msg (countedChunks p msg' c.msg) =
        Crossing.portion p.chunkSize
          ⟨c.msg.packetSize, c.msg.chunkId, msg.packetSize, bytes, time⟩ := by
      rw [← hsize]
      exact fun _ _ => rfl
    constructor
    · simp only [hport, Function.update_self, htraffic, add_sub_cancel_left]
      exact congrArg Nat.cast (hportion _ _)
    · have hdraw : s'.rngDraws + 3 - 2 = s'.rngDraws + 1 := by omega
      refine Eq.trans ?_ (congrArg (fun n : ℕ => p.byteDelay msg.vcIndex * (n : STime))
        (hportion _ _))
      simp only [hport, Function.update_self, havail, Router.availableAfter, hdraw,
        Param.byteDelay]
      ring
  · simp [crossing, rSendEvent] at hx

section

variable {s : Router}

@[simp] theorem setList_linkTraffic (x : Links ℕ × Ends ℕ) (q : Lane) :
    (s.setList x q).linkTraffic = s.linkTraffic := by cases q <;> rfl

@[simp] theorem setList_nextOutputAvailableTime (x : Links ℕ × Ends ℕ) (q : Lane) :
    (s.setList x q).nextOutputAvailableTime = s.nextOutputAvailableTime := by cases q <;> rfl

theorem returnHead_link {q : Lane} {x : ℕ × Router} (h : s.returnHead q = some x) :
    x.2.linkTraffic = s.linkTraffic ∧ x.2.nextOutputAvailableTime = s.nextOutputAvailableTime := by
  obtain ⟨y, -, rfl⟩ := Option.map_eq_some_iff.mp h
  exact ⟨setList_linkTraffic y.2 q, setList_nextOutputAvailableTime y.2 q⟩

theorem takeEscape_link {port : ℕ} {x : ℕ × Chunk × Router} (h : takeEscape p s port = some x) :
    x.2.2.linkTraffic = s.linkTraffic ∧
      x.2.2.nextOutputAvailableTime = s.nextOutputAvailableTime := by
  simp only [takeEscape, Option.bind_eq_some_iff, Option.map_eq_some_iff] at h
  obtain ⟨y, hret, c, -, rfl⟩ := h
  obtain ⟨htraffic, havail⟩ := returnHead_link hret
  exact ⟨by simpa [Router.delete, Router.setChunk] using htraffic,
    by simpa [Router.delete, Router.setChunk] using havail⟩

end

/-- **What a send event puts on a link** counts with its portion. -/
theorem sendCrossings_charged (s : Router) (msg : Msg) : ∀ x ∈ sendCrossings p env self s msg,
    x.Charged p.chunkSize (p.byteDelay msg.vcIndex) := by
  rw [sendCrossings]
  cases h : routerPacketSend p env self s msg with
  | none => exact List.forall_mem_nil _
  | some r =>
    simp only [routerPacketSend] at h
    split_ifs at h
    · obtain ⟨x, htake, hput⟩ := Option.bind_eq_some_iff.mp h
      obtain ⟨htraffic, havail⟩ := takeEscape_link htake
      refine putOnLink_charged hput rfl rfl htraffic havail fun o ho => ?_
      rw [List.mem_singleton.mp ho, routerCreditSend]
      split <;> simp [crossing]
    · obtain rfl := Option.some.inj h
      exact List.forall_mem_nil _
    · obtain ⟨x, hret, hput⟩ := Option.bind_eq_some_iff.mp h
      obtain ⟨htraffic, havail⟩ := returnHead_link hret
      exact putOnLink_charged hput rfl rfl htraffic havail (List.forall_mem_nil _)

/-- **What a run puts on a link** counts with its portion. -/
theorem crossings_charged (n port : ℕ) (net : Net LpState Msg)
    (ls : List (NetLabel LpName Msg Env)) : ∀ x ∈ crossings p n port net ls,
      x.Charged p.chunkSize (p.byteDelay port) := by
  refine Machine.forall_observe (fun net l x hx => ?_) net ls
  rw [stepCrossings] at hx
  split at hx
  · split_ifs at hx with h
    · exact h.2.2 ▸ sendCrossings_charged _ _ x hx
    · cases hx
  · cases hx

theorem Crosses.isPacket {packet : Msg} {l : List Crossing} (hsize : 0 < packet.packetSize)
    (h : Crosses p packet l) : IsPacket p.chunkSize packet.packetSize l := by
  have hnum : numChunks packet.packetSize p.chunkSize =
      if packet.packetSize % p.chunkSize ≠ 0 then packet.packetSize / p.chunkSize + 1
        else packet.packetSize / p.chunkSize :=
    LinkBytes.numChunks_eq p.chunkSize_pos hsize
  refine LinkBytes.isPacket_of_perm ?_ hnum
  simpa [Crosses, chunksOf, Function.comp_def] using h

end CodesSim.Mesh
