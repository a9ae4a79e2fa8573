import CodesSim.Torus.Lane
import CodesSim.Lib.Network

/-!
# The slots of the torus buffers

Every chunk that has left its terminal list holds a slot of one channel, that is, of one queue of
one node: from the moment the slot is taken, through the link, until the chunk is given a slot of
the next queue or is delivered.  Then the slot is on its way back as a credit.

* `LaneOk` : what holds of a single lane.  Chunks are in the lists of the queue they are routed
  through, those that wait do so for want of slots, and the loop runs if it has something to do.
* `Transfer` : what a handler does to the slots of all channels.  At most one chunk enters a
  channel and at most one slot is given back.
-/

namespace CodesSim.Torus

/-- The sizes of a torus for which the `int` arithmetic does not overflow. -/
structure Param.Ints (p : Param) : Prop extends Lengths p.dimLength where
  room_lt : p.bufferSize + 2 * p.chunkSize < 2 ^ 31

section

variable {p : Param} {b : ℤ} (hint : p.Ints) (h0 : 0 ≤ b) (hb : b ≤ p.bufferSize)

include hint h0 hb

theorem hasRoom_one : HasRoom p b 1 ↔ b + p.chunkSize ≤ p.bufferSize := by
  have := hint.room_lt
  rw [HasRoom, one_mul, CodesMapping.wrapInt_of_range (by omega) (by omega)]

theorem hasRoom_two : HasRoom p b 2 ↔ b + 2 * p.chunkSize ≤ p.bufferSize := by
  have := hint.room_lt
  rw [HasRoom, CodesMapping.wrapInt_of_range (by omega) (by omega)]

/-- A slot has just come back. -/
theorem hasRoom_sub : HasRoom p (b - p.chunkSize) 2 ↔ b + p.chunkSize ≤ p.bufferSize := by
  have := hint.room_lt
  have hsum : b - p.chunkSize + 2 * p.chunkSize = b + p.chunkSize := by ring
  rw [HasRoom, hsum, CodesMapping.wrapInt_of_range (by omega) (by omega)]

end

/-- A chunk is in a list of the queue `q` of node `n`. -/
structure Msg.At (c : Msg) (lens : List ℕ) (n q : ℕ) : Prop where
  routed : c.Routed lens n c.sourceDim c.sourceDirection
  queue : c.queue = q
  dest : c.destLp < numNodes lens

/-- A chunk has come to node `n` through the queue `dim`, `dir` of its sender. -/
structure Msg.CameBy (c : Msg) (lens : List ℕ) (n dim dir : ℕ) : Prop where
  sender : c.senderNode < numNodes lens
  dest : c.destLp < numNodes lens
  dor : dimensionOrderRouting lens c.senderNode c.destLp = some (dim, dir)
  here : n = neighbour lens c.senderNode dim dir

/-- What holds of the lane of the queue `q` of node `n`. -/
structure LaneOk (p : Param) (n q : ℕ) (l : Lane) : Prop where
  terminal : ∀ c ∈ l.terminal, c.At p.dimLength n q
  pending : ∀ c ∈ l.pending, c.At p.dimLength n q
  queued : ∀ c ∈ l.queued, c.At p.dimLength n q ∧ c.savedQueue = q ∧
    c.CameBy p.dimLength n c.sourceDim c.sourceDirection
  other : ∀ c ∈ l.other, c.At p.dimLength n q ∧ ∃ dim dir, dim < c.sourceDim ∧
    c.savedQueue = queueOf dim dir ∧ c.CameBy p.dimLength n dim dir
  buffer_le : l.buffer ≤ p.bufferSize
  queued_full : l.queued ≠ [] → p.bufferSize < l.buffer + p.chunkSize
  other_full : l.other ≠ [] → p.bufferSize < l.buffer + 2 * p.chunkSize
  terminal_full : l.terminal ≠ [] → l.loop = 0 → p.bufferSize < l.buffer + 2 * p.chunkSize
  pending_loop : l.pending ≠ [] → l.loop ≠ 0
  loop_le : l.loop ≤ 1

/-- What holds of an event for node `d`. -/
def EventOk (p : Param) (d : ℕ) (e : Event) : Prop :=
  d < numNodes p.dimLength ∧ match e with
    | .generate msg => msg.destLp < numNodes p.dimLength ∧ msg.destLp ≠ d
    | .arrival msg => msg.CameBy p.dimLength d msg.sourceDim msg.sourceDirection
    | .send dim dir => dim < p.dimLength.length ∧ dir < 2
    | .credit dim dir => dim < p.dimLength.length ∧ dir < 2

variable {p : Param} {self id dim dir : ℕ} {l l' : Lane} {e : Event} {outs : List (ℕ × Event)}

variable {c : Msg}

theorem Msg.Routed.at {lens : List ℕ} (h : c.Routed lens self dim dir)
    (hdest : c.destLp < numNodes lens) : c.At lens self (queueOf dim dir) := by
  obtain ⟨hdor, rfl, rfl, hnext⟩ := h
  exact ⟨⟨hdor, rfl, rfl, hnext⟩, rfl, hdest⟩

theorem Msg.At.queue_lt {lens : List ℕ} {n q : ℕ} (h : c.At lens n q) : q < 2 * lens.length := by
  obtain ⟨h1, h2⟩ := dor_lt h.routed.dor
  rw [← h.queue, Msg.queue, queueOf]
  omega

/-- A chunk on the link is where its route leads. -/
theorem Msg.SentAs.eventOk {c' : Msg} {q : ℕ} (h : c.SentAs c' self)
    (hint : p.Ints) (hself : self < numNodes p.dimLength)
    (hat : c.At p.dimLength self q) : EventOk p c.nextStop (.arrival c') := by
  rw [hat.routed.next]
  refine ⟨neighbour_lt hint.toLengths _ _ _, ?_⟩
  refine ⟨by rw [h.sender]; exact hself, by rw [h.dest]; exact hat.dest, ?_, ?_⟩
  · rw [h.sender, h.dest, h.sourceDim, h.sourceDirection]
    exact hat.routed.dor
  · rw [h.sender, h.sourceDim, h.sourceDirection]

theorem Msg.GoesOnAs.dim_cases {msg : Msg} (h : msg.GoesOnAs c p.dimLength self dim dir)
    (hint : p.Ints)
    (hmsg : msg.CameBy p.dimLength self msg.sourceDim msg.sourceDirection) :
    msg.sourceDim < dim ∨ (msg.sourceDim = dim ∧ msg.sourceDirection = dir) := by
  have hdor := h.routed.dor
  rw [h.dest, hmsg.here] at hdor
  obtain h' | ⟨h1, h2⟩ := dor_neighbour hint.toLengths hmsg.dor hdor
  · exact .inl h'
  · exact .inr ⟨h1.symm, h2.symm⟩

theorem Msg.GoesOnAs.at {msg : Msg} (h : msg.GoesOnAs c p.dimLength self dim dir)
    (hdest : msg.destLp < numNodes p.dimLength) : c.At p.dimLength self (queueOf dim dir) :=
  h.routed.at (by rw [h.dest]; exact hdest)

theorem Msg.GoesOnAs.cameBy {msg : Msg} (h : msg.GoesOnAs c p.dimLength self dim dir)
    {d d' : ℕ} (hmsg : msg.CameBy p.dimLength self d d') : c.CameBy p.dimLength self d d' := by
  obtain ⟨h1, h2, h3, h4⟩ := hmsg
  refine ⟨?_, ?_, ?_, ?_⟩
  · rw [h.sender]; exact h1
  · rw [h.dest]; exact h2
  · rw [h.sender, h.dest]; exact h3
  · rw [h.sender]; exact h4

theorem LaneStep.dim_lt (h : LaneStep p self id dim dir l e l' outs) (he : EventOk p self e) :
    dim < p.dimLength.length ∧ dir < 2 := by
  cases h with
  | generate msg chunks hids hchunks =>
    have hne : chunks ≠ [] := by
      rintro rfl
      have hlen := length_of_map_ident hids
      have := one_le_numChunks msg.packetSize p.chunkSize
      simp only [List.length_nil] at hlen
      omega
    obtain ⟨c, hc⟩ := List.exists_mem_of_ne_nil _ hne
    exact dor_lt (hchunks c hc).1.dor
  | sendNone | sendPending | sendTerminal => exact he.2
  | arriveRoom msg c hc | arriveOther msg c hc | arriveQueued msg c hc => exact dor_lt hc.routed.dor
  | creditQueued | creditOther | creditNone => exact he.2

theorem startOuts_ok (hself : self < numNodes p.dimLength)
    (hdim : dim < p.dimLength.length ∧ dir < 2) :
    ∀ x ∈ l.startOuts self dim dir, EventOk p x.1 x.2 := by
  intro x hx
  unfold Lane.startOuts at hx
  split_ifs at hx
  · obtain rfl := List.mem_singleton.1 hx
    exact ⟨hself, hdim⟩
  · simp at hx

theorem goOnOuts_ok (hself : self < numNodes p.dimLength)
    (hdim : dim < p.dimLength.length ∧ dir < 2) {more : Bool} :
    ∀ x ∈ Lane.goOnOuts self dim dir more, EventOk p x.1 x.2 := by
  intro x hx
  cases more with
  | true =>
    obtain rfl := List.mem_singleton.1 hx
    exact ⟨hself, hdim⟩
  | false => simp [Lane.goOnOuts] at hx

theorem Msg.CameBy.credit (h : c.CameBy p.dimLength self dim dir) :
    EventOk p c.senderNode (.credit dim dir) := ⟨h.sender, dor_lt h.dor⟩

theorem Msg.CameBy.credit_saved (h : c.CameBy p.dimLength self dim dir)
    (hsaved : c.savedQueue = queueOf dim dir) :
    EventOk p c.senderNode (.credit (c.savedQueue.toNat / 2) (c.savedQueue.toNat % 2)) := by
  obtain ⟨h1, h2⟩ := dor_lt h.dor
  refine ⟨h.sender, ?_, Nat.mod_lt _ (by decide)⟩
  rw [hsaved, Int.toNat_natCast, queueOf]
  omega

theorem LaneStep.eventOk (h : LaneStep p self id dim dir l e l' outs)
    (hint : p.Ints) (hl : LaneOk p self (queueOf dim dir) l)
    (he : EventOk p self e) : ∀ x ∈ outs, EventOk p x.1 x.2 := by
  have hself := he.1
  have hdim := h.dim_lt he
  have hstart := startOuts_ok (l := l) hself hdim
  cases h with
  | generate => exact hstart
  | sendNone => simp
  | sendPending c c' rest more hpending hc =>
    have hat := hl.pending c (by simp [hpending])
    exact List.forall_mem_cons.2 ⟨hc.eventOk hint hself hat, goOnOuts_ok hself hdim⟩
  | sendTerminal c c' rest more hpending hterminal hc =>
    have hat := hl.terminal c (by simp [hterminal])
    exact List.forall_mem_cons.2 ⟨hc.eventOk hint hself hat, goOnOuts_ok hself hdim⟩
  | arriveRoom msg c => exact List.forall_mem_cons.2 ⟨he.2.credit, hstart⟩
  | arriveOther => exact hstart
  | arriveQueued => exact hstart
  | creditQueued c rest hqueued =>
    obtain ⟨hat, hsaved, hby⟩ := hl.queued c (by simp [hqueued])
    exact List.forall_mem_cons.2 ⟨hby.credit_saved (by rw [hsaved, ← hat.queue]; rfl), hstart⟩
  | creditOther c rest _ hother =>
    obtain ⟨-, _, _, -, hsaved, hby⟩ := hl.other c (by simp [hother])
    exact List.forall_mem_cons.2 ⟨hby.credit_saved hsaved, hstart⟩
  | creditNone => exact hstart

theorem Lane.loop_start (l : Lane) : l.start.loop = l.loop + if l.loop = 0 then 1 else 0 := by
  simp only [Lane.start]
  split_ifs <;> omega

theorem Lane.start_loop (hloop : l.loop ≤ 1) : l.start.loop = 1 := by
  rw [Lane.loop_start]
  split_ifs <;> omega

theorem LaneStep.laneOk (h : LaneStep p self id dim dir l e l' outs)
    (hint : p.Ints) (hl : LaneOk p self (queueOf dim dir) l) (hbuf : 0 ≤ l.buffer)
    (he : EventOk p self e) : LaneOk p self (queueOf dim dir) l' := by
  have hone := hasRoom_one hint hbuf hl.buffer_le
  have htwo := hasRoom_two hint hbuf hl.buffer_le
  have hsub := hasRoom_sub hint hbuf hl.buffer_le
  -- a loop that was started runs, and then only the lists and the buffer matter
  have hstart : ∀ l₁ : Lane, l₁.loop = l.loop → (l₁.start.loop = 1 →
      LaneOk p self (queueOf dim dir) l₁.start) → LaneOk p self (queueOf dim dir) l₁.start :=
    fun l₁ h1 h2 => h2 (Lane.start_loop (by rw [h1]; exact hl.loop_le))
  cases h with
  | generate msg chunks hids hchunks =>
    refine hstart _ rfl fun h1 => { hl with
      terminal := fun c hc => ?_
      terminal_full := fun _ h0 => by omega
      pending_loop := fun _ h0 => by omega
      loop_le := by omega }
    rcases List.mem_append.1 hc with hc | hc
    · exact hl.terminal c hc
    · obtain ⟨hr, hd⟩ := hchunks c hc
      exact hr.at (by rw [hd]; exact he.2.1)
  | sendNone hpending hterminal =>
    exact { hl with
      terminal_full := fun ht _ => not_le.1 (mt htwo.2 (hterminal.resolve_left ht))
      pending_loop := fun hp => absurd hpending hp
      loop_le := by simp [Lane.goOn] }
  | sendPending c c' rest more hpending hc hmore =>
    refine { hl with
      pending := fun c hc => hl.pending c (hpending ▸ List.mem_cons_of_mem _ hc)
      terminal_full := fun ht h0 => ?_
      pending_loop := fun hp => ?_
      loop_le := ?_ }
    · cases more with
      | true => exact hl.terminal_full ht h0
      | false => exact absurd (hmore rfl).2 ht
    · cases more with
      | true => exact hl.pending_loop (by simp [hpending])
      | false => exact absurd (hmore rfl).1 hp
    · cases more with
      | true => exact hl.loop_le
      | false => exact Nat.zero_le 1
  | sendTerminal c c' rest more hpending hterminal hc hroom hmore =>
    rw [htwo] at hroom
    refine { hl with
      terminal := fun c hc => hl.terminal c (hterminal ▸ List.mem_cons_of_mem _ hc)
      buffer_le := by simp only [Lane.goOn]; omega
      queued_full := fun hq => by have := hl.queued_full hq; simp only [Lane.goOn]; omega
      other_full := fun ho => by have := hl.other_full ho; simp only [Lane.goOn]; omega
      terminal_full := fun ht h0 => ?_
      pending_loop := fun hp => absurd hpending hp
      loop_le := ?_ }
    · cases more with
      | true =>
        -- the loop runs: otherwise there would have been no room
        have := hl.terminal_full (by simp [hterminal]) h0
        omega
      | false => exact absurd (hmore rfl) ht
    · cases more with
      | true => exact hl.loop_le
      | false => exact Nat.zero_le 1
  | arriveRoom msg c hc hroom =>
    refine hstart _ rfl fun h1 => { hl with
      pending := List.forall_mem_append.2 ⟨hl.pending, by simpa using hc.at he.2.dest⟩
      buffer_le := ?_
      queued_full := fun hq => by have := hl.queued_full hq; simp only [Lane.start]; omega
      other_full := fun ho => by have := hl.other_full ho; simp only [Lane.start]; omega
      terminal_full := fun _ h0 => by omega
      pending_loop := fun _ h0 => by omega
      loop_le := by omega }
    simp only [Lane.start]
    split_ifs at hroom
    · have := htwo.1 hroom
      omega
    · have := hone.1 hroom
      omega
  | arriveOther msg c hc hsaved hdim hfull =>
    refine hstart _ rfl fun h1 => { hl with
      other := List.forall_mem_append.2 ⟨hl.other, ?_⟩
      other_full := fun _ => not_le.1 (mt htwo.2 hfull)
      terminal_full := fun _ h0 => by omega
      pending_loop := fun _ h0 => by omega
      loop_le := by omega }
    have hlt := (hc.dim_cases hint he.2).resolve_right fun h => hdim h.1
    refine List.forall_mem_singleton.2 ⟨hc.at he.2.dest, _, _, ?_, hsaved, hc.cameBy he.2⟩
    rw [hc.routed.sourceDim]
    exact hlt
  | arriveQueued msg c hc hsaved hdim hfull =>
    refine hstart _ rfl fun h1 => { hl with
      queued := List.forall_mem_append.2 ⟨hl.queued, ?_⟩
      queued_full := fun _ => not_le.1 (mt hone.2 hfull)
      terminal_full := fun _ h0 => by omega
      pending_loop := fun _ h0 => by omega
      loop_le := by omega }
    obtain ⟨h1, h2⟩ := (hc.dim_cases hint he.2).resolve_left (by omega)
    refine List.forall_mem_singleton.2 ⟨hc.at he.2.dest, ?_, ?_⟩
    · rw [hsaved, Msg.queue, h1, h2]
    · rw [hc.routed.sourceDim, hc.routed.sourceDirection, ← h1, ← h2]
      exact hc.cameBy he.2
  | creditQueued c rest hqueued =>
    have hc := hl.queued c (by simp [hqueued])
    exact hstart _ rfl fun h1 => { hl with
      pending := List.forall_mem_append.2 ⟨hl.pending, List.forall_mem_singleton.2 hc.1⟩
      queued := fun c hc => hl.queued c (hqueued ▸ List.mem_cons_of_mem _ hc)
      queued_full := fun _ => hl.queued_full (by simp [hqueued])
      terminal_full := fun _ h0 => by omega
      pending_loop := fun _ h0 => by omega
      loop_le := by omega }
  | creditOther c rest hqueued hother hroom =>
    have hc := hl.other c (by simp [hother])
    exact hstart _ rfl fun h1 => { hl with
      pending := List.forall_mem_append.2 ⟨hl.pending, List.forall_mem_singleton.2 hc.1⟩
      other := fun c hc => hl.other c (hother ▸ List.mem_cons_of_mem _ hc)
      other_full := fun _ => hl.other_full (by simp [hother])
      terminal_full := fun _ h0 => by omega
      pending_loop := fun _ h0 => by omega
      loop_le := by omega }
  | creditNone hqueued hother =>
    refine hstart _ rfl fun h1 => { hl with
      buffer_le := by have := hl.buffer_le; simp only [Lane.start]; omega
      queued_full := fun hq => absurd hqueued hq
      other_full := fun ho => ?_
      terminal_full := fun _ h0 => by omega
      pending_loop := fun _ h0 => by omega
      loop_le := by omega }
    have := mt hsub.2 (hother.resolve_left ho)
    simp only [Lane.start]
    omega

/-! ### Slots -/

/-- The chunk waits and holds a slot of the channel `ch`, a queue of a node. -/
def Msg.holds (c : Msg) (ch : ℕ × ℕ) : Bool := decide (c.senderNode = ch.1 ∧ c.savedQueue = ch.2)

/-- The slots of the channel `ch` that the chunks in the lane of the queue `q` of node `n` hold. -/
def Lane.held (ch : ℕ × ℕ) (n q : ℕ) (l : Lane) : ℕ :=
  (if (n, q) = ch then l.pending.length else 0) + l.queued.countP (·.holds ch) +
    l.other.countP (·.holds ch)

/-- The slots of the channel `ch` that a chunk on a link holds. -/
def heldIn (ch : ℕ × ℕ) : ℕ → Event → ℕ
  | _, .arrival c => if (c.senderNode, c.queue) = ch then 1 else 0
  | _, _ => 0

/-- The slots of the channel `ch` that a credit gives back. -/
def creditIn (ch : ℕ × ℕ) : ℕ → Event → ℕ
  | d, .credit dim dir => if (d, queueOf dim dir) = ch then 1 else 0
  | _, _ => 0

/-- One slot if it is one of the channel `ch`. -/
def slot (o : Option (ℕ × ℕ)) (ch : ℕ × ℕ) : ℕ := if o = some ch then 1 else 0

@[simp] theorem slot_none (ch : ℕ × ℕ) : slot none ch = 0 := rfl

@[simp] theorem slot_some (x ch : ℕ × ℕ) : slot (some x) ch = if x = ch then 1 else 0 := by
  simp [slot]

/-- What the handling of `e` in a lane does to the slots: a chunk takes a slot of the channel
`enter`, and the slot of the channel `leave` is on its way back. -/
structure LaneTransfer (p : Param) (n q : ℕ) (l l' : Lane) (e : Event) (outs : List (ℕ × Event))
    (enter leave : Option (ℕ × ℕ)) : Prop where
  held : ∀ ch, l'.held ch n q + LpSystem.flightSum (heldIn ch) outs + slot leave ch =
    l.held ch n q + heldIn ch n e + slot enter ch
  credit : ∀ ch, LpSystem.flightSum (creditIn ch) outs = slot leave ch
  credit_here : ∀ i, i ≠ q → creditIn (n, i) n e = 0
  buffer : l'.buffer + p.chunkSize * creditIn (n, q) n e = l.buffer + p.chunkSize * slot
    enter (n, q)
  /-- A chunk enters a ring only if a slot stays free, and goes on in it from the channel before. -/
  room : enter = none ∨ enter = some (n, q) ∧ (l'.buffer + p.chunkSize ≤ p.bufferSize ∨
    l'.buffer ≤ p.bufferSize ∧ ∃ u < numNodes p.dimLength,
      leave = some (u, q) ∧ n = neighbour p.dimLength u (q / 2) (q % 2))

theorem Msg.holds_iff {k : ℕ} (h : c.savedQueue = k) (ch : ℕ × ℕ) :
    c.holds ch = decide ((c.senderNode, k) = ch) := by
  obtain ⟨n, q⟩ := ch
  simp [Msg.holds, h, Prod.ext_iff]

theorem queueOf_div (hdir : dir < 2) : queueOf dim dir / 2 = dim := by
  rw [queueOf]
  omega

theorem queueOf_mod (hdir : dir < 2) : queueOf dim dir % 2 = dir := by
  rw [queueOf]
  omega

theorem queueOf_div_mod (q : ℕ) : queueOf (q / 2) (q % 2) = q := by
  rw [queueOf]
  omega

@[simp] theorem heldIn_startOuts (ch : ℕ × ℕ) :
    LpSystem.flightSum (heldIn ch) (l.startOuts self dim dir) = 0 := by
  unfold Lane.startOuts
  split_ifs
  · rfl
  · rfl

@[simp] theorem creditIn_startOuts (ch : ℕ × ℕ) :
    LpSystem.flightSum (creditIn ch) (l.startOuts self dim dir) = 0 := by
  unfold Lane.startOuts
  split_ifs
  · rfl
  · rfl

@[simp] theorem heldIn_goOnOuts (ch : ℕ × ℕ) (more : Bool) :
    LpSystem.flightSum (heldIn ch) (Lane.goOnOuts self dim dir more) = 0 := by
  cases more <;> rfl

@[simp] theorem creditIn_goOnOuts (ch : ℕ × ℕ) (more : Bool) :
    LpSystem.flightSum (creditIn ch) (Lane.goOnOuts self dim dir more) = 0 := by
  cases more <;> rfl

theorem LaneStep.transfer (h : LaneStep p self id dim dir l e l' outs)
    (hint : p.Ints) (hl : LaneOk p self (queueOf dim dir) l) (hbuf : 0 ≤ l.buffer)
    (he : EventOk p self e) :
    ∃ enter leave, LaneTransfer p self (queueOf dim dir) l l' e outs enter leave := by
  have hdim := h.dim_lt he
  have hone := hasRoom_one hint hbuf hl.buffer_le
  have htwo := hasRoom_two hint hbuf hl.buffer_le
  have hsub := hasRoom_sub hint hbuf hl.buffer_le
  cases h with
  | generate msg chunks hids hchunks =>
    refine ⟨none, none, fun ch => ?_, fun ch => ?_, fun i hi => rfl, ?_, .inl rfl⟩
    · simp [heldIn, Lane.start, Lane.held]
    · simp
    · simp [creditIn, Lane.start]
  | sendNone =>
    refine ⟨none, none, fun ch => ?_, fun ch => ?_, fun i hi => rfl, ?_, .inl rfl⟩
    · simp [heldIn, Lane.goOn, Lane.held]
    · simp
    · simp [creditIn, Lane.goOn]
  | sendPending c c' rest more hpending hc =>
    have hqueue : c'.queue = queueOf dim dir := by
      rw [← (hl.pending c (by simp [hpending])).queue, Msg.queue, Msg.queue, hc.sourceDim,
        hc.sourceDirection]
    refine ⟨none, none, fun ch => ?_, fun ch => ?_, fun i hi => rfl, ?_, .inl rfl⟩
    · simp only [Lane.held, Lane.goOn, hpending, heldIn, hc.sender, hqueue,
        LpSystem.flightSum_cons, heldIn_goOnOuts, slot_none, List.length_cons]
      split_ifs <;> omega
    · simp [creditIn]
    · simp [creditIn, Lane.goOn]
  | sendTerminal c c' rest more hpending hterminal hc hroom =>
    have hqueue : c'.queue = queueOf dim dir := by
      rw [← (hl.terminal c (by simp [hterminal])).queue, Msg.queue, Msg.queue, hc.sourceDim,
        hc.sourceDirection]
    refine ⟨some (self, queueOf dim dir), none, fun ch => ?_, fun ch => ?_, fun i hi => rfl, ?_,
      .inr ⟨rfl, .inl ?_⟩⟩
    · simp [Lane.held, Lane.goOn, heldIn, hc.sender, hqueue]
    · simp [creditIn]
    · simp [creditIn, Lane.goOn]
    · rw [htwo] at hroom
      simp only [Lane.goOn]
      omega
  | arriveRoom msg c hc hroom =>
    refine ⟨some (self, queueOf dim dir), some (msg.senderNode, msg.queue), fun ch => ?_,
      fun ch => ?_, fun i hi => rfl, ?_, .inr ⟨rfl, ?_⟩⟩
    · simp only [Lane.held, Lane.start, heldIn, LpSystem.flightSum_cons, heldIn_startOuts,
        slot_some, List.length_append, List.length_singleton]
      split_ifs <;> omega
    · simp [creditIn, Msg.queue]
    · simp [creditIn, Lane.start]
    · rcases hc.dim_cases hint he.2 with hlt | ⟨h1, h2⟩
      · rw [if_pos (by omega), htwo] at hroom
        refine .inl ?_
        simp only [Lane.start]
        omega
      · rw [if_neg (by omega), hone] at hroom
        refine .inr ⟨?_, msg.senderNode, he.2.sender, by rw [Msg.queue, h1, h2], ?_⟩
        · simp only [Lane.start]
          omega
        · rw [queueOf_div hdim.2, queueOf_mod hdim.2, ← h1, ← h2]
          exact he.2.here
  | arriveOther msg c hc hsaved hdim hfull =>
    refine ⟨none, none, fun ch => ?_, fun ch => ?_, fun i hi => rfl, ?_, .inl rfl⟩
    · simp [heldIn, Lane.start, Lane.held, List.countP_append, Msg.holds_iff hsaved, hc.sender]
      omega
    · simp
    · simp [creditIn, Lane.start]
  | arriveQueued msg c hc hsaved hdim hfull =>
    refine ⟨none, none, fun ch => ?_, fun ch => ?_, fun i hi => rfl, ?_, .inl rfl⟩
    · simp [heldIn, Lane.start, Lane.held, List.countP_append, Msg.holds_iff hsaved, hc.sender]
      omega
    · simp
    · simp [creditIn, Lane.start]
  | creditQueued c rest hqueued =>
    obtain ⟨hat, hsaved, hby⟩ := hl.queued c (by simp [hqueued])
    refine ⟨some (self, queueOf dim dir), some (c.senderNode, queueOf dim dir), fun ch => ?_,
      fun ch => ?_, fun i hi => ?_, ?_, .inr ⟨rfl, .inr ⟨hl.buffer_le, c.senderNode, hby.sender,
        rfl, ?_⟩⟩⟩
    · simp [heldIn, Lane.start, Lane.held, hqueued, List.countP_cons, Msg.holds_iff hsaved]
      split_ifs <;> omega
    · simp [creditIn, hsaved, queueOf_div_mod]
    · simp [creditIn, hi.symm]
    · simp [creditIn, Lane.start]
    · have hdir := (dor_lt hat.routed.dor).2
      rw [← hat.queue, Msg.queue, queueOf_div hdir, queueOf_mod hdir]
      exact hby.here
  | creditOther c rest _ hother hroom =>
    obtain ⟨-, d, d', hlt, hsaved, hby⟩ := hl.other c (by simp [hother])
    refine ⟨some (self, queueOf dim dir), some (c.senderNode, queueOf d d'), fun ch => ?_,
      fun ch => ?_, fun i hi => ?_, ?_, .inr ⟨rfl, .inl (hsub.1 hroom)⟩⟩
    · simp [heldIn, Lane.start, Lane.held, hother, List.countP_cons, Msg.holds_iff hsaved]
      split_ifs <;> omega
    · simp [creditIn, hsaved, queueOf_div_mod]
    · simp [creditIn, hi.symm]
    · simp [creditIn, Lane.start]
  | creditNone =>
    refine ⟨none, none, fun ch => ?_, fun ch => ?_, fun i hi => ?_, ?_, .inl rfl⟩
    · simp [heldIn, Lane.start, Lane.held]
    · simp
    · simp [creditIn, hi.symm]
    · simp [creditIn, Lane.start]

/-! ### Loops -/

/-- The loops of the channel `ch` that an event goes on with. -/
def sendIn (ch : ℕ × ℕ) : ℕ → Event → ℕ
  | d, .send dim dir => if (d, queueOf dim dir) = ch then 1 else 0
  | _, _ => 0

@[simp] theorem sendIn_startOuts (ch : ℕ × ℕ) :
    LpSystem.flightSum (sendIn ch) (l.startOuts self dim dir) =
      if (self, queueOf dim dir) = ch ∧ l.loop = 0 then 1 else 0 := by
  by_cases h0 : l.loop = 0
  · simp [Lane.startOuts, h0, sendIn]
  · simp [Lane.startOuts, h0]

@[simp] theorem sendIn_goOnOuts (ch : ℕ × ℕ) (more : Bool) :
    LpSystem.flightSum (sendIn ch) (Lane.goOnOuts self dim dir more) =
      if (self, queueOf dim dir) = ch ∧ more = true then 1 else 0 := by
  cases more
  · simp [Lane.goOnOuts]
  · simp [Lane.goOnOuts, sendIn]

theorem LaneStep.loop_le (h : LaneStep p self id dim dir l e l' outs) (hloop : l.loop ≤ 1) :
    l'.loop ≤ 1 := by
  cases h with
  | generate | arriveRoom | arriveOther | arriveQueued | creditQueued | creditOther | creditNone =>
    exact (Lane.start_loop hloop).le
  | sendNone => exact Nat.zero_le 1
  | sendPending c c' rest more | sendTerminal c c' rest more =>
    cases more with
    | true => exact hloop
    | false => exact Nat.zero_le 1

theorem LaneStep.loop (h : LaneStep p self id dim dir l e l' outs)
    (hloop : ∀ dim dir, e = .send dim dir → l.loop = 1) (ch : ℕ × ℕ) :
    (if (self, queueOf dim dir) = ch then l'.loop else 0) + sendIn ch self e =
      (if (self, queueOf dim dir) = ch then l.loop else 0) +
        LpSystem.flightSum (sendIn ch) outs := by
  by_cases hch : (self, queueOf dim dir) = ch
  · cases h with
    | generate | arriveRoom | arriveOther | arriveQueued | creditQueued | creditOther
    | creditNone => simp [sendIn, hch, Lane.loop_start]
    | sendNone => simp [sendIn, hch, Lane.goOn, hloop dim dir rfl]
    | sendPending c c' rest more | sendTerminal c c' rest more =>
      cases more <;> simp [sendIn, hch, Lane.goOn, hloop dim dir rfl]
  · cases h <;> simp [sendIn, hch]

end CodesSim.Torus
