import CodesSim.Loggp.Basic
import Mathlib.Data.List.Chain
import Mathlib.Tactic.Linarith

/-!
# Timing of a loggp NIC

A NIC transmits one packet after the other and receives one after the other: a packet holds it for
its transmission time, the gap per byte for each byte but the first, and then for the gap.  `Timed`
says so of a run, with the times of the events that are sent.

* `timing_exact` : the packets that break it are those without a byte, for which the number of bytes
  but the first is the largest 64-bit word.  An empty message is sent as one such packet
  (`emptyMessage_overflows`).

The event for the receive queue takes a local latency, as all events do; it is part of what is said
of its time.
-/

namespace CodesSim.Loggp

/-! ### Packets of a run -/

/-- The transmission time of a packet, in nanoseconds: the gap per byte, but for the first byte. -/
def byteTime (size : UInt64) (param : ParamTableEntry) : STime :=
  (size.toNat - 1 : ℕ) * param.G * 1000

/-- A packet that was handled: the state and the parameters it found, and the outcome. -/
structure Handled where
  ns : LoggpState
  call : NicCall LoggpMsg
  param : ParamTableEntry
  r : NicResult LoggpState LoggpMsg

namespace Handled

variable (x : Handled)

def size : UInt64 := x.call.msg.netMsgSizeBytes

/-- The gap behind the packet. -/
def gap : STime := x.param.g * 1000

/-- When the transmission of a packet that is sent starts. -/
def sendStart : STime := max x.call.now x.ns.netSendNextIdle

/-- When its reception is through, at the other side. -/
def recvEnd : STime := max x.call.now x.ns.netRecvNextIdle + byteTime x.size x.param

end Handled

variable (c : NicCtx)

/-- A packet of a kind that is handled in a state. -/
def handled (type : NicEventType) (ns : LoggpState) (x : NicCall LoggpMsg) : List Handled :=
  if x.type = type then
    ((findParams x.msg.netMsgSizeBytes ns.params).bind fun param =>
      (loggpEvent { c with fresh := x.fresh } x.now ns x.globals type x.msg).map fun r =>
        ⟨ns, x, param, r⟩).toList
  else []

/-- The packets of a run that are sent (`start`) or received (`ready`), in order. -/
def packets (ns : LoggpState) (xs : List (NicCall LoggpMsg)) (type : NicEventType) :
    List Handled :=
  (loggpMachine c).observe (handled c type) ns xs

/-! ### What is said of their times -/

/-- A packet is sent: the transmission time, until when the NIC is taken, and when the packet is at
the receive queue of the other side. -/
structure SendTimed (x : Handled) : Prop where
  nonneg : 0 ≤ x.r.msg.xmitTimeSaved
  xmitTime : x.r.msg.xmitTimeSaved = byteTime x.size x.param
  nextIdle : x.r.state.netSendNextIdle = x.sendStart + byteTime x.size x.param + x.gap
  arrival : ∃ offset m, .recvMsg x.call.msg.destMnLp offset m ∈ x.r.out ∧
    m.req.msgSize = x.size ∧ x.call.now + offset =
      x.sendStart + x.param.L * 1000 + localLatency { c with fresh := x.call.fresh } x.call.globals

/-- A packet is received: the transmission time, until when the NIC is taken, and when the payload
is delivered. -/
structure RecvTimed (x : Handled) : Prop where
  nonneg : 0 ≤ x.r.msg.recvTimeSaved
  recvTime : x.r.msg.recvTimeSaved = byteTime x.size x.param
  nextIdle : x.r.state.netRecvNextIdle = x.recvEnd + x.gap
  delivery : x.call.msg.eventSizeBytes ≠ 0 → x.call.msg.isPull = false → ∃ offset bytes,
    .sent (.payload x.call.msg.finalDestGid offset bytes) ∈ x.r.out ∧
      x.call.now + offset = x.recvEnd

/-- The times of a run. -/
structure Timed (ns : LoggpState) (xs : List (NicCall LoggpMsg)) : Prop where
  send : ∀ x ∈ packets c ns xs .start, SendTimed c x
  recv : ∀ x ∈ packets c ns xs .ready, RecvTimed x
  /-- A transmission starts when the one before is through, with its gap. -/
  spaced : (packets c ns xs .start).IsChain fun x y =>
    x.sendStart + byteTime x.size x.param + x.gap ≤ y.sendStart
  /-- Packets are delivered in the order in which they arrive. -/
  ordered : (packets c ns xs .ready).IsChain fun x y => x.recvEnd ≤ y.recvEnd
  /-- Each has its own transmission time behind the gap of the one before. -/
  behind : (packets c ns xs .ready).IsChain fun x y =>
    x.recvEnd + x.gap + byteTime y.size y.param ≤ y.recvEnd

/-- The parameters suit a packet: none is charged for the byte that an empty packet does not have,
and bytes take time. -/
def Sane (x : Handled) : Prop :=
  (x.size = 0 → x.param.G = 0) ∧ (2 ≤ x.size → 0 ≤ x.param.G)

instance (x : Handled) : Decidable (Sane x) := inferInstanceAs (Decidable (_ ∧ _))

/-! ### One packet -/

variable {c} {ns ns' : LoggpState} {x : NicCall LoggpMsg} {h : Handled} {type : NicEventType}

variable {size : UInt64}

theorem toNat_sub_one_of_ne (h : size ≠ 0) : (size - 1).toNat = size.toNat - 1 := by
  have hpos : size.toNat ≠ 0 := fun hzero => h (UInt64.toNat_inj.1 hzero)
  have hle : 1 ≤ size := by
    rw [UInt64.le_iff_toNat_le]
    exact Nat.one_le_iff_ne_zero.2 hpos
  rw [UInt64.toNat_sub_of_le _ _ hle]
  rfl

theorem xmitTime_of_ne (h : size ≠ 0) (param : ParamTableEntry) :
    xmitTime size param = byteTime size param := by
  rw [xmitTime, byteTime, toNat_sub_one_of_ne h]

theorem xmitTime_right_iff (size : UInt64) (param : ParamTableEntry) :
    (0 ≤ xmitTime size param ∧ xmitTime size param = byteTime size param) ↔
      (size = 0 → param.G = 0) ∧ (2 ≤ size → 0 ≤ param.G) := by
  by_cases hzero : size = 0
  · subst hzero
    have hxmit : xmitTime 0 param = (2 ^ 64 - 1 : ℕ) * param.G * 1000 := rfl
    have hbyte : byteTime 0 param = 0 := by simp [byteTime]
    have htwo : ¬ (2 : UInt64) ≤ 0 := by decide
    rw [hbyte]
    constructor
    · rintro ⟨-, hright⟩
      refine ⟨fun _ => ?_, fun hle => absurd hle htwo⟩
      rw [hxmit] at hright
      simpa using hright
    · rintro ⟨hG, -⟩
      have hright : xmitTime 0 param = 0 := by rw [hxmit, hG rfl, mul_zero, zero_mul]
      exact ⟨hright.ge, hright⟩
  · rw [xmitTime_of_ne hzero]
    have hpos : size.toNat ≠ 0 := fun h => hzero (UInt64.toNat_inj.1 h)
    have htwo : 2 ≤ size ↔ 2 ≤ size.toNat := UInt64.le_iff_toNat_le
    constructor
    · rintro ⟨hright, -⟩
      refine ⟨fun h => absurd h hzero, fun hle => ?_⟩
      have hbytes : (0 : ℚ) < (size.toNat - 1 : ℕ) := by
        have := htwo.1 hle
        exact_mod_cast (by omega : 0 < size.toNat - 1)
      by_contra hneg
      have := mul_neg_of_pos_of_neg hbytes (not_le.1 hneg)
      rw [byteTime] at hright
      linarith
    · rintro ⟨-, hG⟩
      refine ⟨?_, rfl⟩
      by_cases hle : 2 ≤ size
      · have := mul_nonneg (Nat.cast_nonneg (α := ℚ) (size.toNat - 1)) (hG hle)
        rw [byteTime]
        linarith
      · have hone : size.toNat - 1 = 0 := by
          have := htwo.not.1 hle
          omega
        rw [byteTime, hone]
        simp

theorem byteTime_nonneg {param : ParamTableEntry}
    (h : 2 ≤ size → 0 ≤ param.G) (hzero : size = 0 → param.G = 0) : 0 ≤ byteTime size param := by
  obtain ⟨hnonneg, hright⟩ := (xmitTime_right_iff size param).2 ⟨hzero, h⟩
  exact hright ▸ hnonneg

theorem mem_handled (h : Handled) : h ∈ handled c type ns x ↔
    h.ns = ns ∧ h.call = x ∧ x.type = type ∧
      findParams x.msg.netMsgSizeBytes ns.params = some h.param ∧
      loggpEvent { c with fresh := x.fresh } x.now ns x.globals type x.msg = some h.r := by
  obtain ⟨hns, hcall, hparam, hr⟩ := h
  rw [handled]
  split_ifs with htype
  · simp only [Option.mem_toList, Option.bind_eq_some_iff, Option.map_eq_some_iff,
      Handled.mk.injEq]
    constructor
    · rintro ⟨param, hparam, r, hr, rfl, rfl, rfl, rfl⟩
      exact ⟨rfl, rfl, htype, hparam, hr⟩
    · rintro ⟨rfl, rfl, -, hparam, hr⟩
      exact ⟨_, hparam, _, hr, rfl, rfl, rfl, rfl⟩
  · simp [htype]

theorem sendTimed_iff (hh : h ∈ handled c .start ns x) : SendTimed c h ↔ Sane h := by
  obtain ⟨rfl, rfl, -, hparam, hr⟩ := (mem_handled h).1 hh
  obtain ⟨param, i, hparam', -, hres⟩ := handleMsgStartEvent_eq_some hr
  obtain rfl : h.param = param := Option.some.inj (hparam.symm.trans hparam')
  have hxmit : h.r.msg.xmitTimeSaved = xmitTime h.size h.param := by
    rw [hres]
    rfl
  constructor
  · intro ht
    exact (xmitTime_right_iff _ _).1 ⟨hxmit ▸ ht.nonneg, hxmit ▸ ht.xmitTime⟩
  · intro hs
    obtain ⟨hnonneg, hright⟩ := (xmitTime_right_iff _ _).2 hs
    have hstart : (if h.ns.netSendNextIdle < h.call.now then h.call.now else h.ns.netSendNextIdle) =
        h.sendStart := by
      rw [Handled.sendStart, max_comm, max_def_lt]
    refine ⟨hxmit ▸ hnonneg, hxmit.trans hright, ?_, sendQueueTime h.call.now h.ns h.param +
      localLatency { c with fresh := h.call.fresh } h.call.globals,
      recvQueueMsg { c with fresh := h.call.fresh } h.call.msg, ?_, rfl, ?_⟩
    · have hidle : h.r.state.netSendNextIdle = h.sendStart + (xmitTime h.size h.param + h.gap) := by
        rw [hres, ← hstart]
        rfl
      rw [hidle, hright, add_assoc]
    · rw [hres]
      exact List.mem_append_left _ List.mem_cons_self
    · have hqueue : sendQueueTime h.call.now h.ns h.param =
          h.param.L * 1000 + (h.sendStart - h.call.now) := by
        rw [sendQueueTime, Handled.sendStart, max_def_lt]
        split_ifs <;> simp
      rw [hqueue]
      ring

/-- So is one that is received. -/
theorem recvTimed_iff (hh : h ∈ handled c .ready ns x) : RecvTimed h ↔ Sane h := by
  obtain ⟨rfl, rfl, -, hparam, hr⟩ := (mem_handled h).1 hh
  obtain ⟨param, i, eventRc, g', out, hparam', -, hdeliver, hres⟩ := handleMsgReadyEvent_eq_some hr
  obtain rfl : h.param = param := Option.some.inj (hparam.symm.trans hparam')
  have hrecv : h.r.msg.recvTimeSaved = xmitTime h.size h.param := by
    rw [hres]
    rfl
  constructor
  · intro ht
    exact (xmitTime_right_iff _ _).1 ⟨hrecv ▸ ht.nonneg, hrecv ▸ ht.recvTime⟩
  · intro hs
    obtain ⟨hnonneg, hright⟩ := (xmitTime_right_iff _ _).2 hs
    have hqueue : h.call.now + recvQueueTime h.call.now h.ns h.call.msg h.param = h.recvEnd := by
      rw [recvQueueTime, Handled.recvEnd, ← hright, max_def_lt]
      split_ifs
      · rw [← add_assoc, add_sub_cancel]
        rfl
      · rw [zero_add]
        rfl
    refine ⟨hrecv ▸ hnonneg, hrecv.trans hright, ?_, fun hsize hpull => ?_⟩
    · have hidle : h.r.state.netRecvNextIdle =
          recvQueueTime h.call.now h.ns h.call.msg h.param + h.call.now + h.gap := by
        rw [hres]
        rfl
      rw [hidle, ← hqueue, add_comm h.call.now]
    · rw [deliver, if_neg hsize, hpull, if_neg (by simp)] at hdeliver
      obtain ⟨-, -, rfl⟩ := by simpa using hdeliver
      refine ⟨recvQueueTime h.call.now h.ns h.call.msg h.param,
        h.call.msg.edata.read 0 h.call.msg.eventSizeBytes.toNat, ?_, hqueue⟩
      rw [hres]
      exact List.mem_cons_of_mem _ (List.mem_singleton_self _)

/-! ### Runs -/

/-- What a packet knows of the state it finds. -/
theorem ns_of_mem_handled (hh : h ∈ handled c type ns x) : h.ns = ns := ((mem_handled h).1 hh).1

theorem length_handled_le : (handled c type ns x).length ≤ 1 := by
  rw [handled]
  split_ifs
  · exact Option.length_toList_le
  · exact Nat.zero_le 1

theorem state_of_mem_handled (hstep : (loggpMachine c).step ns x = some ns')
    (hh : h ∈ handled c type ns x) : h.r.state = ns' := by
  obtain ⟨rfl, rfl, rfl, -, hr⟩ := (mem_handled h).1 hh
  obtain ⟨r, hr', rfl⟩ := Option.map_eq_some_iff.1 hstep
  rw [Option.some.inj (hr'.symm.trans hr)]

/-- A packet that is received leaves the sending side alone, and the other way round. -/
theorem idle_of_not_handled (hstep : (loggpMachine c).step ns x = some ns')
    (hnone : handled c type ns x = []) :
    match type with
    | .start => ns'.netSendNextIdle = ns.netSendNextIdle
    | .ready => ns'.netRecvNextIdle = ns.netRecvNextIdle := by
  obtain ⟨r, hr, rfl⟩ := Option.map_eq_some_iff.1 hstep
  have htype : x.type ≠ type := by
    rintro rfl
    have hparam : ∃ param, findParams x.msg.netMsgSizeBytes ns.params = some param := by
      cases htype : x.type with
      | start =>
        rw [htype] at hr
        obtain ⟨param, -, hparam, -⟩ := handleMsgStartEvent_eq_some hr
        exact ⟨param, hparam⟩
      | ready =>
        rw [htype] at hr
        obtain ⟨param, -, -, -, -, hparam, -⟩ := handleMsgReadyEvent_eq_some hr
        exact ⟨param, hparam⟩
    obtain ⟨param, hparam⟩ := hparam
    rw [handled, if_pos rfl, hparam, hr] at hnone
    simp at hnone
  cases type with
  | start =>
    have hready : x.type = .ready := by
      cases hx : x.type with
      | start => exact absurd hx htype
      | ready => rfl
    rw [hready] at hr
    obtain ⟨param, i, eventRc, g', out, -, -, -, rfl⟩ := handleMsgReadyEvent_eq_some hr
    rfl
  | ready =>
    have hstart : x.type = .start := by
      cases hx : x.type with
      | start => rfl
      | ready => exact absurd hx htype
    rw [hstart] at hr
    obtain ⟨param, i, -, -, rfl⟩ := handleMsgStartEvent_eq_some hr
    rfl

theorem packets_chain_send (ns : LoggpState) (xs : List (NicCall LoggpMsg)) :
    (packets c ns xs .start).IsChain fun x y => x.r.state.netSendNextIdle ≤ y.sendStart := by
  refine Machine.isChain_observe (A := fun x s => s.netSendNextIdle = x.r.state.netSendNextIdle)
    (fun _ _ => length_handled_le) ?_ ?_ ?_ ns xs
  · intro s l s' hstep x hx
    rw [state_of_mem_handled hstep hx]
  · intro s l s' hstep hnone x hx
    exact (idle_of_not_handled hstep hnone).trans hx
  · intro s l x y hx hy
    rw [Handled.sendStart, ns_of_mem_handled hy, hx]
    exact le_max_right _ _

theorem packets_chain_recv (ns : LoggpState) (xs : List (NicCall LoggpMsg)) :
    (packets c ns xs .ready).IsChain fun x y =>
      x.r.state.netRecvNextIdle + byteTime y.size y.param ≤ y.recvEnd := by
  refine Machine.isChain_observe (A := fun x s => s.netRecvNextIdle = x.r.state.netRecvNextIdle)
    (fun _ _ => length_handled_le) ?_ ?_ ?_ ns xs
  · intro s l s' hstep x hx
    rw [state_of_mem_handled hstep hx]
  · intro s l s' hstep hnone x hx
    exact (idle_of_not_handled hstep hnone).trans hx
  · intro s l x y hx hy
    rw [Handled.recvEnd, ns_of_mem_handled hy, hx]
    exact add_le_add_left (le_max_right _ _) _

theorem forall_packets {P Q : Handled → Prop} (h : ∀ ns x, ∀ y ∈ handled c type ns x, P y ↔ Q y)
    (ns : LoggpState) (xs : List (NicCall LoggpMsg)) : ∀ y ∈ packets c ns xs type, P y ↔ Q y :=
  Machine.forall_observe h ns xs

/-- **Timing.**  Over every run, in any state: where the times are right the parameters suit each
packet; and where they suit each packet and no gap is negative, the times are right. -/
theorem timing_exact (ns : LoggpState) (xs : List (NicCall LoggpMsg)) :
    (Timed c ns xs → ∀ type, ∀ x ∈ packets c ns xs type, Sane x) ∧
      ((∀ type, ∀ x ∈ packets c ns xs type, Sane x ∧ 0 ≤ x.param.g) → Timed c ns xs) := by
  have hsend := forall_packets (fun ns x y hy => sendTimed_iff (c := c) hy) ns xs
  have hrecv := forall_packets (fun ns x y hy => recvTimed_iff (c := c) hy) ns xs
  constructor
  · intro ht type
    cases type with
    | start => exact fun x hx => (hsend x hx).1 (ht.send x hx)
    | ready => exact fun x hx => (hrecv x hx).1 (ht.recv x hx)
  · intro hs
    have hsent := fun x hx => (hsend x hx).2 (hs .start x hx).1
    have hreceived := fun x hx => (hrecv x hx).2 (hs .ready x hx).1
    have hbehind : (packets c ns xs .ready).IsChain fun x y =>
        x.recvEnd + x.gap + byteTime y.size y.param ≤ y.recvEnd := by
      refine (packets_chain_recv ns xs).imp_of_mem_imp fun x y hx _ hxy => ?_
      rwa [(hreceived x hx).nextIdle] at hxy
    refine ⟨hsent, hreceived, ?_, ?_, hbehind⟩
    · refine (packets_chain_send ns xs).imp_of_mem_imp fun x y hx _ hxy => ?_
      rwa [(hsent x hx).nextIdle] at hxy
    · refine hbehind.imp_of_mem_imp fun x y hx hy hxy => ?_
      have hgap : 0 ≤ x.gap := mul_nonneg (hs .ready x hx).2 (by norm_num)
      have hbytes : 0 ≤ byteTime y.size y.param :=
        byteTime_nonneg (hs .ready y hy).1.2 (hs .ready y hy).1.1
      linarith

/-- The first of two NICs. -/
def firstNic : NicCtx := ⟨twoNodes, 1, (shortMessage 0).event⟩

/-- A latency and a gap of 1 microsecond, and a nanosecond for each byte. -/
def oneEntry : List ParamTableEntry := [⟨1000000, 1, 1, 1 / 1000⟩]

/-- A new message. -/
def blank : LoggpMsg where
  srcGid := 0
  srcMnLp := 0
  finalDestGid := 0
  destMnLp := 0
  netMsgSizeBytes := 0
  eventSizeBytes := 0
  localEventSizeBytes := 0
  category := ""
  eventRc := 0
  isPull := false
  pullSize := 0
  edata := fun _ => 0
  schedParams := defaultParams
  netSendNextIdleSaved := 0
  netRecvNextIdleSaved := 0
  xmitTimeSaved := 0
  recvTimeSaved := 0

/-- A message from the first node to the second. -/
def message (size : UInt64) : Request :=
  { (default : Request) with
    finalDestLp := 2
    destMnLp := 3
    srcLp := 0
    msgSize := size
    packetSize := 512
    netId := .loggp
    category := "test" }

/-- What the scheduler hands over first of a message without payloads, the queue being empty. -/
def firstCall (size : UInt64) : Option MethodCall :=
  (fcfsAdd (message size) defaultParams 0 blank.edata 0 blank.edata (fcfsInit false)).bind fun s =>
    (fcfsNext s blank.edata default).call

/-- Packets of 1, 512 and 2 bytes, sent and received. -/
def somePackets : List (NicCall LoggpMsg) :=
  [⟨0, untouched, firstNic.fresh, .start, { blank with netMsgSizeBytes := 1 }⟩,
    ⟨100, untouched, firstNic.fresh, .ready, { blank with netMsgSizeBytes := 512 }⟩,
    ⟨100, untouched, firstNic.fresh, .start, { blank with netMsgSizeBytes := 512 }⟩,
    ⟨200, untouched, firstNic.fresh, .ready, { blank with netMsgSizeBytes := 2 }⟩]

/-- All four are handled, and their times are right. -/
theorem timing_exact_somePackets :
    (packets firstNic (loggpInit oneEntry 0) somePackets .start).length = 2 ∧
      (packets firstNic (loggpInit oneEntry 0) somePackets .ready).length = 2 ∧
      Timed firstNic (loggpInit oneEntry 0) somePackets := by
  have hsane : ∀ type, ((packets firstNic (loggpInit oneEntry 0) somePackets type).all fun x =>
      decide (Sane x ∧ 0 ≤ x.param.g)) = true := by
    rintro (_ | _) <;> decide +kernel
  exact ⟨by decide +kernel, by decide +kernel, (timing_exact _ _).2 fun type x hx =>
    of_decide_eq_true (List.all_eq_true.1 (hsane type) x hx)⟩

/-- The packet of an empty message. -/
def emptyPacket : LoggpMsg :=
  { blank with category := "test", finalDestGid := 2, destMnLp := 3, srcGid := 0, srcMnLp := 1 }

/-- **An empty message takes the time of 2⁶⁴ bytes**: it is handed over as one packet without a
byte. -/
theorem emptyMessage_overflows :
    (∃ call offset, firstCall 0 = some call ∧
      issue firstNic untouched blank call = .nic 1 offset .start emptyPacket) ∧
      ¬ Timed firstNic (loggpInit oneEntry 0)
        [⟨1, untouched, firstNic.fresh, .start, emptyPacket⟩] := by
  refine ⟨⟨_, _, rfl, rfl⟩, fun ht => ?_⟩
  have hpackets : ((packets firstNic (loggpInit oneEntry 0)
      [⟨1, untouched, firstNic.fresh, .start, emptyPacket⟩] .start).any fun x =>
        decide (¬ Sane x)) = true := by
    decide +kernel
  obtain ⟨x, hx, hsane⟩ := List.any_eq_true.1 hpackets
  have hexact := forall_packets (fun _ _ _ hy => sendTimed_iff hy) (loggpInit oneEntry 0)
    [⟨1, untouched, firstNic.fresh, .start, emptyPacket⟩] x hx
  exact of_decide_eq_true hsane (hexact.1 (ht.send x hx))

end CodesSim.Loggp
