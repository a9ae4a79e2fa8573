import CodesSim.Torus.Coords

/-!
# Flow control of a torus queue

The part of a queue that flow control is about is a `Lane`: its buffer, its lists and its loop
flag.  A handler changes one lane (or only delivers a chunk), and in one of ten ways (`LaneStep`):
chunks are injected, put on the link, given a slot or made to wait.  `handle_cases` says so once;
everything about flow control is derived from it.
-/

namespace CodesSim.Torus

open Function

/-- The flow-control part of a queue. -/
structure Lane where
  buffer : ℤ
  (terminal pending queued other : List Msg)
  loop : ℕ

/-- The lanes of a node. -/
def Node.lane (s : Node) (queue : ℕ) : Lane :=
  ⟨s.buffer queue, s.terminalMsgs queue, s.pendingMsgs queue, s.queuedMsgs queue,
    s.otherMsgs queue, s.inSendLoop queue⟩

/-- The event for a node among the effects. -/
def Out.toNode : Out → Option (ℕ × Event)
  | .node d _ e => some (d, e)
  | _ => none

/-- The events sent to nodes. -/
def sent (outs : List Out) : List (ℕ × Event) := outs.filterMap Out.toNode

@[simp] theorem sent_nil : sent [] = [] := rfl

@[simp] theorem sent_append (l l' : List Out) : sent (l ++ l') = sent l ++ sent l' :=
  List.filterMap_append

namespace Lane

/-- The loop runs afterwards. -/
def start (l : Lane) : Lane := { l with loop := if l.loop = 0 then 1 else l.loop }

/-- The event that starts the loop, if it does not run. -/
def startOuts (l : Lane) (self dim dir : ℕ) : List (ℕ × Event) :=
  if l.loop = 0 then [(self, .send dim dir)] else []

/-- The loop goes on if there is more to send. -/
def goOn (l : Lane) (more : Bool) : Lane := { l with loop := if more then l.loop else 0 }

/-- The event with which the loop goes on. -/
def goOnOuts (self dim dir : ℕ) (more : Bool) : List (ℕ × Event) :=
  if more then [(self, .send dim dir)] else []

end Lane

/-- What stays the same of a chunk on its way. -/
structure ChunkIdent where
  category : String
  travelStartTime : STime
  packetId : ℕ
  finalDestGid : Lpid
  destLp : ℕ
  senderSvr : Lpid
  packetSize : ℕ
  chunkId : ℕ
  deriving DecidableEq

def Msg.ident (c : Msg) : ChunkIdent :=
  ⟨c.category, c.travelStartTime, c.packetId, c.finalDestGid, c.destLp, c.senderSvr, c.packetSize,
    c.chunkId⟩

/-- The chunks of a packet that gets the number `id`. -/
def chunkIdents (p : Param) (id : ℕ) (msg : Msg) : List ChunkIdent :=
  (List.range (numChunks msg.packetSize p.chunkSize)).map fun j =>
    { msg.ident with packetId := id, chunkId := j }

variable {msg : Msg}

theorem length_of_map_ident {p : Param} {id : ℕ} {chunks : List Msg}
    (h : chunks.map Msg.ident = chunkIdents p id msg) :
    chunks.length = numChunks msg.packetSize p.chunkSize := by
  simpa [chunkIdents] using congrArg List.length h

/-- The queue of a chunk. -/
def Msg.queue (c : Msg) : ℕ := queueOf c.sourceDim c.sourceDirection

/-- A chunk at node `n` goes on through the queue `dim`, `dir`. -/
structure Msg.Routed (c : Msg) (lens : List ℕ) (n dim dir : ℕ) : Prop where
  dor : dimensionOrderRouting lens n c.destLp = some (dim, dir)
  sourceDim : c.sourceDim = dim
  sourceDirection : c.sourceDirection = dir
  next : c.nextStop = neighbour lens n dim dir

/-- `c'` is `c` as it is put on the link of node `n`. -/
structure Msg.SentAs (c c' : Msg) (n : ℕ) : Prop where
  ident : c'.ident = c.ident
  sourceDim : c'.sourceDim = c.sourceDim
  sourceDirection : c'.sourceDirection = c.sourceDirection
  sender : c'.senderNode = n

/-- `c'` is the arrived chunk `c` as it goes on at node `n`. -/
structure Msg.GoesOnAs (c c' : Msg) (lens : List ℕ) (n dim dir : ℕ) : Prop where
  routed : c'.Routed lens n dim dir
  ident : c'.ident = c.ident
  sender : c'.senderNode = c.senderNode

theorem Msg.SentAs.dest {c c' : Msg} {n : ℕ} (h : c.SentAs c' n) : c'.destLp = c.destLp :=
  congrArg ChunkIdent.destLp h.ident

theorem Msg.GoesOnAs.dest {c c' : Msg} {lens : List ℕ} {n dim dir : ℕ}
    (h : c.GoesOnAs c' lens n dim dir) : c'.destLp = c.destLp :=
  congrArg ChunkIdent.destLp h.ident

/-- What happens to the lane of the queue `dim`, `dir` of node `self`, which has numbered `id`
packets: the event handled, the new lane and the events sent to nodes. -/
inductive LaneStep (p : Param) (self id dim dir : ℕ) (l : Lane) :
    Event → Lane → List (ℕ × Event) → Prop
  /-- The chunks of a new packet wait for two free slots. -/
  | generate (msg : Msg) (chunks : List Msg)
      (hids : chunks.map Msg.ident = chunkIdents p id msg)
      (hchunks : ∀ c ∈ chunks, c.Routed p.dimLength self dim dir ∧ c.destLp = msg.destLp) :
      LaneStep p self id dim dir l (.generate msg)
        (Lane.start { l with terminal := l.terminal ++ chunks }) (l.startOuts self dim dir)
  /-- Nothing can be sent. -/
  | sendNone (hpending : l.pending = [])
      (hterminal : l.terminal = [] ∨ ¬ HasRoom p l.buffer 2) :
      LaneStep p self id dim dir l (.send dim dir) (l.goOn false) []
  /-- A chunk with a slot is sent. -/
  | sendPending (c c' : Msg) (rest : List Msg) (more : Bool) (hpending : l.pending = c :: rest)
      (hc : c.SentAs c' self) (hmore : more = false → rest = [] ∧ l.terminal = []) :
      LaneStep p self id dim dir l (.send dim dir) (Lane.goOn { l with pending := rest } more)
        ((c.nextStop, .arrival c') :: Lane.goOnOuts self dim dir more)
  /-- A new chunk enters the network. -/
  | sendTerminal (c c' : Msg) (rest : List Msg) (more : Bool) (hpending : l.pending = [])
      (hterminal : l.terminal = c :: rest) (hc : c.SentAs c' self)
      (hroom : HasRoom p l.buffer 2) (hmore : more = false → rest = []) :
      LaneStep p self id dim dir l (.send dim dir)
        (Lane.goOn { l with buffer := l.buffer + p.chunkSize, terminal := rest } more)
        ((c.nextStop, .arrival c') :: Lane.goOnOuts self dim dir more)
  /-- An arrived chunk is given a slot. -/
  | arriveRoom (msg c : Msg) (hc : msg.GoesOnAs c p.dimLength self dim dir)
      (hroom : HasRoom p l.buffer (if msg.sourceDim ≠ dim then 2 else 1)) :
      LaneStep p self id dim dir l (.arrival msg)
        (Lane.start { l with buffer := l.buffer + p.chunkSize, pending := l.pending ++ [c] })
        ((msg.senderNode, .credit msg.sourceDim msg.sourceDirection) ::
          l.startOuts self dim dir)
  /-- An arrived chunk waits to enter a ring. -/
  | arriveOther (msg c : Msg) (hc : msg.GoesOnAs c p.dimLength self dim dir)
      (hsaved : c.savedQueue = msg.queue) (hdim : msg.sourceDim ≠ dim)
      (hfull : ¬ HasRoom p l.buffer 2) :
      LaneStep p self id dim dir l (.arrival msg)
        (Lane.start { l with other := l.other ++ [c] }) (l.startOuts self dim dir)
  /-- An arrived chunk waits to go on in its ring. -/
  | arriveQueued (msg c : Msg) (hc : msg.GoesOnAs c p.dimLength self dim dir)
      (hsaved : c.savedQueue = msg.queue) (hdim : msg.sourceDim = dim)
      (hfull : ¬ HasRoom p l.buffer 1) :
      LaneStep p self id dim dir l (.arrival msg)
        (Lane.start { l with queued := l.queued ++ [c] }) (l.startOuts self dim dir)
  /-- A slot comes back and goes to a chunk of the ring. -/
  | creditQueued (c : Msg) (rest : List Msg) (hqueued : l.queued = c :: rest) :
      LaneStep p self id dim dir l (.credit dim dir)
        (Lane.start { l with queued := rest, pending := l.pending ++ [c] })
        ((c.senderNode, .credit (c.savedQueue.toNat / 2) (c.savedQueue.toNat % 2)) ::
          l.startOuts self dim dir)
  /-- A slot comes back and goes to a chunk that enters the ring. -/
  | creditOther (c : Msg) (rest : List Msg) (hqueued : l.queued = [])
      (hother : l.other = c :: rest) (hroom : HasRoom p (l.buffer - p.chunkSize) 2) :
      LaneStep p self id dim dir l (.credit dim dir)
        (Lane.start { l with other := rest, pending := l.pending ++ [c] })
        ((c.senderNode, .credit (c.savedQueue.toNat / 2) (c.savedQueue.toNat % 2)) ::
          l.startOuts self dim dir)
  /-- A slot comes back and stays free. -/
  | creditNone (hqueued : l.queued = [])
      (hother : l.other = [] ∨ ¬ HasRoom p (l.buffer - p.chunkSize) 2) :
      LaneStep p self id dim dir l (.credit dim dir)
        (Lane.start { l with buffer := l.buffer - p.chunkSize }) (l.startOuts self dim dir)

/-! ### The handlers -/

variable {p : Param} {env : Env} {self : ℕ} {s s₁ s₂ s' : Node} {queue dim dir : ℕ} {l l' : Lane}

/-- `s'` is `s` with another lane for the queue, as far as flow control goes. -/
structure Changes (s s' : Node) (queue : ℕ) (l : Lane) : Prop where
  lane : s'.lane = update s.lane queue l
  data : s'.totalDataSz = s.totalDataSz

theorem Changes.refl (s : Node) (queue : ℕ) : Changes s s queue (s.lane queue) :=
  ⟨(update_eq_self queue _).symm, rfl⟩

theorem Changes.lane_self (h : Changes s s' queue l) : s'.lane queue = l := by
  rw [h.lane, update_self]

theorem Changes.trans (h : Changes s s₁ queue l) (h' : Changes s₁ s' queue l') :
    Changes s s' queue l' := by
  refine ⟨?_, h'.data.trans h.data⟩
  rw [h'.lane, h.lane, update_idem]

theorem Changes.mk' (hself : s'.lane queue = l) (hne : ∀ q, q ≠ queue → s'.lane q = s.lane q)
    (hdata : s'.totalDataSz = s.totalDataSz) : Changes s s' queue l := by
  refine ⟨funext fun q => ?_, hdata⟩
  by_cases h : q = queue
  · rw [h, hself, update_self]
  · rw [hne q h, update_of_ne h]

theorem startSend_changes (env : Env) (self : ℕ) (s : Node) (dim dir : ℕ) (extra : STime) :
    Changes s (startSend env self s dim dir extra).1 (queueOf dim dir)
        (s.lane (queueOf dim dir)).start ∧
      sent (startSend env self s dim dir extra).2 =
        (s.lane (queueOf dim dir)).startOuts self dim dir := by
  by_cases h : s.inSendLoop (queueOf dim dir) = 0
  · refine ⟨.mk' ?_ (fun q hq => ?_) ?_, ?_⟩
    · simp [startSend, h, Lane.start, Node.lane]
    · simp [startSend, h, hq, Node.lane]
    · simp [startSend, h]
    · simp [startSend, h, Lane.startOuts, Node.lane, sent, Out.toNode]
  · have hstart : (s.lane (queueOf dim dir)).start = s.lane (queueOf dim dir) := by
      simp [Lane.start, Node.lane, h]
    rw [hstart, startSend, if_neg h]
    refine ⟨.refl s _, ?_⟩
    simp [Lane.startOuts, Node.lane, h]

theorem continueSend_changes (env : Env) (self : ℕ) (s : Node) (dim dir : ℕ) (more : Bool)
    (ts : STime) :
    Changes s (continueSend env self s dim dir more ts).1 (queueOf dim dir)
        ((s.lane (queueOf dim dir)).goOn more) ∧
      sent (continueSend env self s dim dir more ts).2 = Lane.goOnOuts self dim dir more := by
  cases more with
  | true => exact ⟨.mk' rfl (fun _ _ => rfl) rfl, rfl⟩
  | false =>
    refine ⟨.mk' ?_ (fun q hq => ?_) rfl, rfl⟩
    · simp [continueSend, Lane.goOn, Node.lane]
    · simp [continueSend, hq, Node.lane]

theorem transmit_sent (p : Param) (env : Env) (self : ℕ) (c : Msg) :
    ∃ c', c.SentAs c' self ∧ ∀ s queue,
      sent (transmit p env self s queue c).2.1 = [(c.nextStop, .arrival c')] := by
  refine ⟨{ c with
    senderNode := self
    localEventSizeBytes := 0
    eventData := c.eventData.take c.remoteEventSizeBytes }, ⟨rfl, rfl, rfl, rfl⟩, ?_⟩
  intro s queue
  simp only [transmit]
  split_ifs <;> rfl

/-- Node `self` has handled `e` by changing one lane. -/
def Steps (p : Param) (self : ℕ) (s : Node) (e : Event) (r : Node × List Out) : Prop :=
  ∃ dim dir l, LaneStep p self s.packetCounter dim dir (s.lane (queueOf dim dir)) e l (sent r.2) ∧
    Changes s r.1 (queueOf dim dir) l

variable {e : Event}

theorem Steps.startSend (outs : List Out) {extra : STime} (h : Changes s s₁ (queueOf dim dir) l)
    (hstep : LaneStep p self s.packetCounter dim dir (s.lane (queueOf dim dir)) e l.start
      (sent outs ++ l.startOuts self dim dir)) :
    Steps p self s e ((startSend env self s₁ dim dir extra).1,
      outs ++ (Torus.startSend env self s₁ dim dir extra).2) := by
  obtain ⟨h1, h2⟩ := startSend_changes env self s₁ dim dir extra
  rw [h.lane_self] at h1 h2
  refine ⟨dim, dir, l.start, ?_, h.trans h1⟩
  rw [sent_append, h2]
  exact hstep

theorem Steps.continueSend (outs : List Out) {more : Bool} {ts : STime}
    (h : Changes s s₁ (queueOf dim dir) l)
    (hstep : LaneStep p self s.packetCounter dim dir (s.lane (queueOf dim dir)) e (l.goOn more)
      (sent outs ++ Lane.goOnOuts self dim dir more)) :
    Steps p self s e ((continueSend env self s₁ dim dir more ts).1,
      outs ++ (Torus.continueSend env self s₁ dim dir more ts).2) := by
  obtain ⟨h1, h2⟩ := continueSend_changes env self s₁ dim dir more ts
  rw [h.lane_self] at h1
  refine ⟨dim, dir, l.goOn more, ?_, h.trans h1⟩
  rw [sent_append, h2]
  exact hstep

variable {r : Node × List Out}

theorem packetGenerate_steps
    (h : packetGenerate p env self s msg = some r) : Steps p self s (.generate msg) r := by
  obtain ⟨⟨dim, dir⟩, hdor, rfl⟩ := Option.map_eq_some_iff.1 h
  refine Steps.startSend [] (l := { s.lane (queueOf dim dir) with
    terminal := s.terminalMsgs (queueOf dim dir) ++
      (List.range (numChunks msg.packetSize p.chunkSize)).map fun j => { msg with
        packetId := s.packetCounter
        myNHop := 0
        sourceDirection := dir
        sourceDim := dim
        nextStop := neighbour p.dimLength self dim dir
        savedQueue := -1
        chunkId := j } }) (.mk' ?_ (fun q hq => ?_) rfl) (.generate msg _ ?_ ?_)
  · simp [Node.lane]
  · simp [Node.lane, hq]
  · rw [chunkIdents, List.map_map]
    rfl
  · intro c hc
    obtain ⟨j, -, rfl⟩ := List.mem_map.1 hc
    exact ⟨⟨hdor, rfl, rfl, rfl⟩, rfl⟩

theorem packetSend_steps (p : Param) (env : Env) (self : ℕ) (s : Node) (dim dir : ℕ) :
    Steps p self s (.send dim dir) (packetSend p env self s dim dir) := by
  have hnone : ∀ s₁ : Node, Changes s s₁ (queueOf dim dir) ((s.lane (queueOf dim dir)).goOn false) →
      s.pendingMsgs (queueOf dim dir) = [] → (s.terminalMsgs (queueOf dim dir) = [] ∨
        ¬ HasRoom p (s.buffer (queueOf dim dir)) 2) →
      Steps p self s (.send dim dir) (s₁, []) :=
    fun s₁ hs₁ hp ht => ⟨dim, dir, _, .sendNone hp ht, hs₁⟩
  cases hp : s.pendingMsgs (queueOf dim dir) with
  | cons c rest =>
    obtain ⟨c', hc, hout⟩ := transmit_sent p env self c
    simp only [packetSend, hp]
    refine Steps.continueSend _ (l := { s.lane (queueOf dim dir) with pending := rest })
      (.mk' ?_ (fun q hq => ?_) rfl) ?_
    · simp [Node.lane, transmit]
    · simp [Node.lane, transmit, hq]
    · rw [hout]
      exact .sendPending c c' rest _ hp hc (by simp [Node.lane])
  | nil =>
    cases ht : s.terminalMsgs (queueOf dim dir) with
    | nil =>
      simp only [packetSend, hp, ht]
      refine hnone _ (.mk' ?_ (fun q hq => ?_) rfl) hp (.inl ht)
      · simp [Node.lane, Lane.goOn]
      · simp [Node.lane, hq]
    | cons c rest =>
      simp only [packetSend, hp, ht]
      by_cases hroom : HasRoom p (s.buffer (queueOf dim dir)) 2
      · obtain ⟨c', hc, hout⟩ := transmit_sent p env self c
        simp only [if_pos hroom]
        refine Steps.continueSend _ (l := { s.lane (queueOf dim dir) with
          buffer := s.buffer (queueOf dim dir) + p.chunkSize
          terminal := rest }) (.mk' ?_ (fun q hq => ?_) rfl) ?_
        · simp [Node.lane, transmit]
        · simp [Node.lane, transmit, hq]
        · rw [hout]
          exact .sendTerminal c c' rest _ hp ht hc hroom (by simp)
      · simp only [if_neg hroom]
        refine hnone _ (.mk' ?_ (fun q hq => ?_) rfl) hp (.inr hroom)
        · simp [Node.lane, Lane.goOn]
        · simp [Node.lane, hq]

theorem arriveTransit_steps
    (h : arriveTransit p env self s msg = some r) : Steps p self s (.arrival msg) r := by
  obtain ⟨⟨dim, dir⟩, hdor, rfl⟩ := Option.map_eq_some_iff.1 h
  -- the chunk as it goes on, whatever is saved in it
  have hgo : ∀ saved, msg.GoesOnAs { msg with
      myNHop := msg.myNHop + 1
      nextStop := neighbour p.dimLength self dim dir
      sourceDim := dim
      sourceDirection := dir
      savedQueue := saved
      eventData := msg.eventData.take msg.remoteEventSizeBytes } p.dimLength self dim dir :=
    fun saved => ⟨⟨hdor, rfl, rfl, rfl⟩, rfl, rfl⟩
  by_cases hroom : HasRoom p (s.buffer (queueOf dim dir)) (if msg.sourceDim ≠ dim then 2 else 1)
  · simp only [if_pos hroom]
    refine Steps.startSend _ (l := { s.lane (queueOf dim dir) with
      buffer := s.buffer (queueOf dim dir) + p.chunkSize
      pending := s.pendingMsgs (queueOf dim dir) ++ [_] }) (.mk' ?_ (fun q hq => ?_) rfl)
      (.arriveRoom msg _ (hgo msg.savedQueue) hroom)
    · simp [Node.lane, creditSend]
    · simp [Node.lane, creditSend, hq]
  · simp only [if_neg hroom]
    by_cases hdim : msg.sourceDim = dim
    · rw [if_neg (not_not.2 hdim)] at hroom
      simp only [if_neg (not_not.2 hdim)]
      refine Steps.startSend _ (l := { s.lane (queueOf dim dir) with
        queued := s.queuedMsgs (queueOf dim dir) ++ [_] }) (.mk' ?_ (fun q hq => ?_) rfl)
        (.arriveQueued msg _ (hgo (queueOf msg.sourceDim msg.sourceDirection)) rfl hdim
          hroom)
      · simp [Node.lane]
      · simp [Node.lane, hq]
    · rw [if_pos hdim] at hroom
      simp only [if_pos hdim]
      refine Steps.startSend _ (l := { s.lane (queueOf dim dir) with
        other := s.otherMsgs (queueOf dim dir) ++ [_] }) (.mk' ?_ (fun q hq => ?_) rfl)
        (.arriveOther msg _ (hgo (queueOf msg.sourceDim msg.sourceDirection)) rfl hdim
          hroom)
      · simp [Node.lane]
      · simp [Node.lane, hq]

theorem Changes.endBusy (env : Env) (h : Changes s s₁ queue l) :
    Changes s (endBusy env s₁ queue) queue l := by
  unfold Torus.endBusy
  split_ifs
  · exact ⟨h.lane, h.data⟩
  · exact h

/-- A slot came back: it goes to a waiting chunk, which leaves the buffer as it was, or it stays
free. -/
theorem passOn_steps {extra : STime} (h : Changes s s₁ (queueOf dim dir)
      { s.lane (queueOf dim dir) with buffer := s.buffer (queueOf dim dir) - p.chunkSize }) :
    Steps p self s (.credit dim dir)
      ((startSend env self (passOn p env s₁ (queueOf dim dir)).1 dim dir extra).1,
        (passOn p env s₁ (queueOf dim dir)).2 ++
          (startSend env self (passOn p env s₁ (queueOf dim dir)).1 dim dir extra).2) := by
  have hl := h.lane_self
  simp only [Node.lane, Lane.mk.injEq] at hl
  have hqueued := hl.2.2.2.1
  have hother := hl.2.2.2.2.1
  unfold passOn
  split
  next c rest hq =>
    refine Steps.startSend _ (l := { s.lane (queueOf dim dir) with
      queued := rest
      pending := s.pendingMsgs (queueOf dim dir) ++ [c] })
      (h.trans (.mk' ?_ (fun q hq => ?_) rfl)) (.creditQueued c rest (hqueued.symm.trans hq))
    · simp [Node.lane, grant, creditSend, hl]
    · simp [Node.lane, grant, creditSend, hq]
  next hq =>
    have hq : (s.lane (queueOf dim dir)).queued = [] := hqueued.symm.trans hq
    split_ifs with hroom
    · rw [hl.1] at hroom
      split
      next c rest ho =>
        refine Steps.startSend _ (l := { s.lane (queueOf dim dir) with
          other := rest
          pending := s.pendingMsgs (queueOf dim dir) ++ [c] })
          (h.trans (.mk' ?_ (fun q hq => ?_) rfl))
          (.creditOther c rest hq (hother.symm.trans ho) hroom)
        · simp [Node.lane, grant, creditSend, hl]
        · simp [Node.lane, grant, creditSend, hq]
      next ho => exact Steps.startSend [] h (.creditNone hq (.inl (hother.symm.trans ho)))
    · rw [hl.1] at hroom
      exact Steps.startSend [] h (.creditNone hq (.inr hroom))

theorem packetBufferProcess_steps (p : Param) (env : Env) (self : ℕ) (s : Node) (dim dir : ℕ) :
    Steps p self s (.credit dim dir) (packetBufferProcess p env self s dim dir) := by
  refine passOn_steps (Changes.endBusy env (.mk' ?_ (fun q hq => ?_) rfl))
  · simp [Node.lane]
  · simp [Node.lane, hq]

theorem arriveHere_eq (p : Param) (env : Env) (s : Node) (msg : Msg) :
    (arriveHere p env s msg).1.lane = s.lane ∧
      (arriveHere p env s msg).1.totalDataSz = s.totalDataSz + p.chunkSize ∧
      sent (arriveHere p env s msg).2 =
        [(msg.senderNode, .credit msg.sourceDim msg.sourceDirection)] := by
  simp only [arriveHere, creditSend]
  split_ifs <;> exact ⟨rfl, rfl, rfl⟩

/-- **What a handler does.**  It changes one lane, or it delivers a chunk. -/
theorem handle_cases (h : handle p env self s e = some r) :
    Steps p self s e r ∨ ∃ msg, e = .arrival msg ∧ self = msg.destLp ∧ r.1.lane = s.lane ∧
      r.1.totalDataSz = s.totalDataSz + p.chunkSize ∧
      sent r.2 = [(msg.senderNode, .credit msg.sourceDim msg.sourceDirection)] := by
  cases e with
  | generate msg => exact .inl (packetGenerate_steps h)
  | arrival msg =>
    rw [handle, packetArrive] at h
    split_ifs at h with hself
    · rw [← Option.some.inj h]
      exact .inr ⟨msg, rfl, hself, arriveHere_eq p env s msg⟩
    · exact .inl (arriveTransit_steps h)
  | send dim dir =>
    rw [← Option.some.inj h]
    exact .inl (packetSend_steps p env self s dim dir)
  | credit dim dir =>
    rw [← Option.some.inj h]
    exact .inl (packetBufferProcess_steps p env self s dim dir)

end CodesSim.Torus
