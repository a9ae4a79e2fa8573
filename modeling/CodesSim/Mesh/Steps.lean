import CodesSim.Mesh.Lists

/-!
# What an event does to a router

`RouterStep` lists what the events of a router do to its chunks and lists, to the places that are
taken, and to the send loops, and what they send.  `routerEvent_step` says that this is all, and
that the lists stay in order.
-/

namespace CodesSim.Mesh

open Function

variable (p : Param) (env : Env) (self : ℕ)

/-- The list whose first chunk is found where the alternate queue of a port would have it. -/
def Param.front (L : Lane → List ℕ) (port : ℕ) : List ℕ :=
  if p.IsAlt port 0 then L (.alt port) else L (.queued port 0)

/-- The send loop of a port is started if a condition holds and it is not running. -/
def Wakes (s s' : Router) (port : ℕ) (cond : Prop) (outs : List Out) : Prop :=
  ((s.inSendLoop port = 0 ∧ cond) ∧ s'.inSendLoop = update s.inSendLoop port 1 ∧
    outs = [rSendEvent env self port (env.latency s.latDraws)]) ∨
  (¬ (s.inSendLoop port = 0 ∧ cond) ∧ s'.inSendLoop = s.inSendLoop ∧ outs = [])

/-- The place for a chunk of a port and VC is given back and not passed on to a parked chunk. -/
def Router.Held (s : Router) (L : Lane → List ℕ) (port vc : ℕ) : Prop :=
  p.IsAlt port vc ∨ L (.queued port vc) = [] ∨ ∃ a l c, L (.queued port vc) = a :: l ∧
    s.chunks a = some c ∧ ¬ (s.release p env.now port vc).Passes p port vc c

/-- Element `a` is taken out of all lists. -/
def takeOut (L : Lane → List ℕ) (a : ℕ) (q : Lane) : List ℕ := (L q).erase a

/-- What an event does to a router with the lists `L`. -/
inductive RouterStep (s : Router) (L : Lane → List ℕ) (msg : Msg) :
    Router → (Lane → List ℕ) → List Out → Prop
  /-- A chunk arrives and gets a place. -/
  | place {s' : Router} {outs : List Out} (stop : NextStop) (type : msg.type = .rArrive)
      (next : getNextStop p self s msg = some stop)
      (dynamic : p.routing ≠ .static → stop.dstDim ≠ none → stop.vc ≠ 0)
      (hops : HopsBelow p msg.myNHop) (room : s.HasRoom p stop)
      (unused : s.chunks env.fresh = none)
      (chunks : s'.chunks = update s.chunks env.fresh
        (some ⟨hopMsg msg, stop.port, stop.vc, false, 0⟩))
      (occupancy : s'.vcOccupancy = update s.vcOccupancy (stop.port, stop.vc)
        (s.vcOccupancy (stop.port, stop.vc) + p.chunkSize))
      (count : s'.queuedCount = s.queuedCount) (loop : Wakes env self s s' stop.port True outs) :
      RouterStep s L msg s' (update L (.pending stop.port stop.vc)
        (L (.pending stop.port stop.vc) ++ [env.fresh]))
        (routerCreditSend p env s.rngDraws msg :: outs)
  /-- A chunk arrives and is parked. -/
  | park {s' : Router} (stop : NextStop) (type : msg.type = .rArrive)
      (next : getNextStop p self s msg = some stop)
      (dynamic : p.routing ≠ .static → stop.dstDim ≠ none → stop.vc ≠ 0)
      (hops : HopsBelow p msg.myNHop) (room : ¬ s.HasRoom p stop)
      (unused : s.chunks env.fresh = none) (plain : p.routing = .static ∨ stop.dstDim = none)
      (chunks : s'.chunks =
        update s.chunks env.fresh (some (waitingChunk p msg stop none)))
      (occupancy : s'.vcOccupancy = s.vcOccupancy)
      (count : s'.queuedCount = update s.queuedCount stop.port
        (s.queuedCount stop.port + p.chunkSize)) (loop : s'.inSendLoop = s.inSendLoop) :
      RouterStep s L msg s' (update L (.queued stop.port stop.vc)
        (L (.queued stop.port stop.vc) ++ [env.fresh])) []
  /-- A chunk arrives and is parked; it also waits in the alternate queue of a port. -/
  | parkTwice {s' : Router} {outs : List Out} (stop : NextStop) (port : ℕ)
      (type : msg.type = .rArrive) (next : getNextStop p self s msg = some stop)
      (dynamic : stop.vc ≠ 0) (hops : HopsBelow p msg.myNHop)
      (room : ¬ s.HasRoom p stop) (unused : s.chunks env.fresh = none)
      (adaptive : p.routing ≠ .static) (dim : stop.dstDim ≠ none)
      (static : stop.staticPort = some port) (router : p.numCn ≤ port)
      (chunks : s'.chunks =
        update s.chunks env.fresh (some (waitingChunk p msg stop (some port))))
      (occupancy : s'.vcOccupancy = s.vcOccupancy)
      (count : s'.queuedCount = update s.queuedCount stop.port
        (s.queuedCount stop.port + p.chunkSize))
      (loop : Wakes env self s s' port (s.HasEscape p port) outs) :
      RouterStep s L msg s' (update (update L (.queued stop.port stop.vc)
        (L (.queued stop.port stop.vc) ++ [env.fresh])) (.alt port) (L (.alt port) ++ [env.fresh]))
        outs
  /-- A port has nothing to send. -/
  | halt {s' : Router} (type : msg.type = .rSend)
      (empty : ∀ vc < p.numVcs, L (.pending msg.vcIndex vc) = [])
      (waits : ¬ s.Escapes p msg.vcIndex) (chunks : s'.chunks = s.chunks)
      (occupancy : s'.vcOccupancy = s.vcOccupancy) (count : s'.queuedCount = s.queuedCount)
      (loop : s'.inSendLoop = update s.inSendLoop msg.vcIndex 0) :
      RouterStep s L msg s' L []
  /-- A pending chunk is sent on. -/
  | send {s' : Router} (a vc : ℕ) (c : Chunk) (l : List ℕ) (dest : LpName) (ts ts' : STime)
      (type : msg.type = .rSend) (vc_lt : vc < p.numVcs)
      (head : L (.pending msg.vcIndex vc) = a :: l) (chunk : s.chunks a = some c)
      (link : sendsTo p self msg.vcIndex c.msg = some dest) (chunks : s'.chunks = s.chunks)
      (occupancy : s'.vcOccupancy = s.vcOccupancy) (count : s'.queuedCount = s.queuedCount)
      (loop : s'.inSendLoop = s.inSendLoop) :
      RouterStep s L msg s' (takeOut L a)
        [.event dest ts (sentMsg p self msg.vcIndex vc c.msg), rSendEvent env self msg.vcIndex ts']
  /-- A chunk of the alternate queue is sent on by VC 0. -/
  | escape {s' : Router} (a : ℕ) (c : Chunk) (l : List ℕ) (dest : LpName) (ts ts' : STime)
      (type : msg.type = .rSend) (empty : ∀ vc < p.numVcs, L (.pending msg.vcIndex vc) = [])
      (escapes : s.Escapes p msg.vcIndex) (head : L (.alt msg.vcIndex) = a :: l)
      (chunk : s.chunks a = some c) (parked : a ∈ L (.queued c.port c.index))
      (link : sendsTo p self msg.vcIndex c.msg = some dest)
      (chunks : s'.chunks = update s.chunks a (some { c with inAltQ := false }))
      (occupancy : s'.vcOccupancy = update s.vcOccupancy (msg.vcIndex, 0)
        (s.vcOccupancy (msg.vcIndex, 0) + p.chunkSize))
      (count : s'.queuedCount = update s.queuedCount c.port
        (s.queuedCount c.port - p.chunkSize)) (loop : s'.inSendLoop = s.inSendLoop) :
      RouterStep s L msg s' (takeOut L a)
        [routerCreditSend p env s.rngDraws c.msg,
          .event dest ts (sentMsg p self msg.vcIndex 0 c.msg), rSendEvent env self msg.vcIndex ts']
  /-- A credit comes back, and no parked chunk gets the place. -/
  | release {s' : Router} {outs : List Out} (type : msg.type = .rBuffer)
      (held : s.Held p env L msg.vcIndex msg.outputChan) (chunks : s'.chunks = s.chunks)
      (occupancy : s'.vcOccupancy = update s.vcOccupancy (msg.vcIndex, msg.outputChan)
        (s.vcOccupancy (msg.vcIndex, msg.outputChan) - p.chunkSize))
      (count : s'.queuedCount = s.queuedCount)
      (loop : Wakes env self s s' msg.vcIndex (L (.pending msg.vcIndex msg.outputChan) ≠ [] ∨
        (s'.HasEscape p msg.vcIndex ∧ p.front L msg.vcIndex ≠ [])) outs) :
      RouterStep s L msg s' L outs
  /-- A credit comes back, and a parked chunk gets the place. -/
  | pass {s' : Router} {outs : List Out} (a : ℕ) (c : Chunk) (l : List ℕ)
      (type : msg.type = .rBuffer)
      (valid : ¬ p.IsAlt msg.vcIndex msg.outputChan)
      (head : L (.queued msg.vcIndex msg.outputChan) = a :: l) (chunk : s.chunks a = some c)
      (passes : (s.release p env.now msg.vcIndex msg.outputChan).Passes p msg.vcIndex
        msg.outputChan c)
      (chunks : s'.chunks = update s.chunks a (some { c with inAltQ := false }))
      (occupancy : s'.vcOccupancy = s.vcOccupancy)
      (count : s'.queuedCount = update s.queuedCount msg.vcIndex
        (s.queuedCount msg.vcIndex - p.chunkSize))
      (loop : Wakes env self s s' msg.vcIndex True outs) :
      RouterStep s L msg s' (update (takeOut L a) (.pending msg.vcIndex msg.outputChan)
        (L (.pending msg.vcIndex msg.outputChan) ++ [a]))
        (routerCreditSend p env s.rngDraws c.msg :: outs)

/-! ### Arrival -/

section

variable {p env self} {s : Router} {L : Lane → List ℕ} {msg : Msg} {stop : NextStop}

variable {q : Lane}

/-- An element is put at the end of one of the lists. -/
theorem mem_update_append {a b : ℕ} (hb : b ≠ a) (q' : Lane) :
    b ∈ update L q (L q ++ [a]) q' ↔ b ∈ L q' := by
  by_cases h : q' = q
  · subst h
    simp [hb]
  · rw [update_of_ne h]

variable {l : List ℕ} {a : ℕ}

theorem eq_of_mem_update {q' : Lane} (ha : ∀ q, a ∉ L q) (h : a ∈ update L q l q') : q' = q := by
  by_contra hq
  rw [update_of_ne hq] at h
  exact ha q' h

theorem mem_update_self : a ∈ update L q (L q ++ [a]) q := by simp

variable {r : Result Router}

theorem receivePlaced_step (h : s.Ok p L) (type : msg.type = .rArrive)
    (next : getNextStop p self s msg = some stop)
    (dynamic : p.routing ≠ .static → stop.dstDim ≠ none → stop.vc ≠ 0)
    (hops : HopsBelow p msg.myNHop) (room : s.HasRoom p stop)
    (unused : s.chunks env.fresh = none) (hr : receivePlaced p env self s msg stop = some r) :
    ∃ L', RouterStep p env self s L msg r.state L' r.outs ∧ r.state.Ok p L' := by
  have hnot := h.not_mem unused
  obtain ⟨x, -, heq, hlists, -, hlinks⟩ := (h.lists.setChunk env.fresh
    (some ⟨hopMsg msg, stop.port, stop.vc, false, 0⟩)).append (q := .pending stop.port stop.vc)
    trivial (fun q' _ => hnot q') (h.unused _ unused (.pending 0 0)).1
    (h.unused _ unused (.pending 0 0)).2
  rw [receivePlaced, h.newChunk_eq unused, heq] at hr
  obtain rfl := Option.some.inj hr
  refine ⟨_, .place stop type next dynamic hops room unused rfl rfl rfl ?_,
    h.move (hlists.congr rfl rfl rfl rfl) rfl hlinks (fun q b hb => mem_update_append hb q)
      (fun q hq => ?_) (fun port hp => ?_) fun port vc hp => ?_⟩
  · by_cases hloop : s.inSendLoop stop.port = 0
    · exact .inl ⟨⟨hloop, trivial⟩, by simp [hloop], by simp [hloop]⟩
    · exact .inr ⟨fun hw => hloop hw.1, by simp [hloop], by simp [hloop]⟩
  · rw [eq_of_mem_update hnot hq]
    exact ⟨rfl, rfl, rfl⟩
  · cases eq_of_mem_update hnot hp
  · cases eq_of_mem_update hnot hp

variable {s' : Router}

theorem parkChunk_spec (h : s.Ok p L) (unused : s.chunks env.fresh = none)
    (valid : ¬ p.IsAlt stop.port stop.vc) (alt : Option ℕ)
    (hs' : parkChunk p env s msg stop alt = some s') :
    s'.Lists p (update L (.queued stop.port stop.vc)
        (L (.queued stop.port stop.vc) ++ [env.fresh])) ∧
      s'.chunks = update s.chunks env.fresh (some (waitingChunk p msg stop alt)) ∧
      s'.vcOccupancy = s.vcOccupancy ∧
      s'.queuedCount = update s.queuedCount stop.port
        (s.queuedCount stop.port + p.chunkSize) ∧
      s'.inSendLoop = s.inSendLoop ∧ s'.altLinks = s.altLinks ∧
      Router.Untouched L env.fresh s s' := by
  obtain ⟨x, -, heq, hlists, -, hlinks⟩ := (h.lists.setChunk env.fresh
    (some (waitingChunk p msg stop alt))).append (q := .queued stop.port stop.vc) valid
    (fun q' _ => h.not_mem unused q') (h.unused _ unused (.pending 0 0)).1
    (h.unused _ unused (.pending 0 0)).2
  rw [parkChunk, h.newChunk_eq unused, heq] at hs'
  obtain rfl := Option.some.inj hs'
  exact ⟨hlists.congr rfl rfl rfl rfl, rfl, rfl, rfl, rfl, rfl, hlinks⟩

theorem receiveParked_step (h : s.Ok p L) (type : msg.type = .rArrive)
    (next : getNextStop p self s msg = some stop)
    (dynamic : p.routing ≠ .static → stop.dstDim ≠ none → stop.vc ≠ 0)
    (valid : ¬ p.IsAlt stop.port stop.vc)
    (hops : HopsBelow p msg.myNHop) (room : ¬ s.HasRoom p stop)
    (unused : s.chunks env.fresh = none) (hr : receiveParked p env self s msg stop = some r) :
    ∃ L', RouterStep p env self s L msg r.state L' r.outs ∧ r.state.Ok p L' := by
  have hnot := h.not_mem unused
  unfold receiveParked at hr
  split at hr
  · rename_i plain
    obtain ⟨s', hs', rfl⟩ := Option.map_eq_some_iff.1 hr
    obtain ⟨hlists, hchunks, hocc, hcount, hloop, -, hlinks⟩ := parkChunk_spec h unused valid _ hs'
    refine ⟨_, .park stop type next dynamic hops room unused plain hchunks hocc hcount hloop,
      h.move hlists hchunks hlinks (fun q b hb => mem_update_append hb q) (fun q hq => ?_)
        (fun port hp => ?_) fun port vc hp hin => ?_⟩
    · rw [eq_of_mem_update hnot hq]
      exact ⟨rfl, rfl⟩
    · cases eq_of_mem_update hnot hp
    · cases hin
  · rename_i adaptive
    rw [not_or] at adaptive
    obtain ⟨port, hport, hr⟩ := Option.bind_eq_some_iff.1 hr
    obtain ⟨s', hs', hr⟩ := Option.bind_eq_some_iff.1 hr
    obtain ⟨hlists, hchunks, hocc, hcount, hloop, halt, hlinks⟩ :=
      parkChunk_spec h unused valid _ hs'
    simp only [Option.ite_none_left_eq_some] at hr
    obtain ⟨hport_ge, hr⟩ := hr
    have hrouter : p.numCn ≤ port := Nat.not_lt.1 hport_ge
    -- the alternate queue of the port
    have hne : (Lane.alt port) ≠ .queued stop.port stop.vc := by simp
    have hunused := h.unused _ unused (.alt port)
    obtain ⟨x, -, heq, hlists', -, hlinks'⟩ := hlists.append (q := .alt port) (a := env.fresh)
      ⟨adaptive.1, rfl, hrouter⟩ (fun q' hq' => by
        rw [update_of_ne (by rintro rfl; cases hq')]
        exact hnot q') (by rw [Router.linksOf, halt]; exact hunused.1)
      (by rw [Router.linksOf, halt]; exact hunused.2)
    rw [heq] at hr
    obtain rfl := Option.some.inj hr
    have hL : update L (.queued stop.port stop.vc)
        (L (.queued stop.port stop.vc) ++ [env.fresh]) (.alt port) = L (.alt port) :=
      update_of_ne hne _ _
    have hmem : ∀ q b, b ≠ env.fresh → (b ∈ update (update L
        (.queued stop.port stop.vc) (L (.queued stop.port stop.vc) ++ [env.fresh])) (.alt port)
        (L (.alt port) ++ [env.fresh]) q ↔ b ∈ L q) := by
      intro q b hb
      rw [← hL, mem_update_append hb, mem_update_append hb]
    have hself : ∀ q, env.fresh ∈ update (update L
        (.queued stop.port stop.vc) (L (.queued stop.port stop.vc) ++ [env.fresh])) (.alt port)
        (L (.alt port) ++ [env.fresh]) q → q = .alt port ∨ q = .queued stop.port stop.vc := by
      intro q hq
      by_cases hqa : q = .alt port
      · exact .inl hqa
      · rw [update_of_ne hqa] at hq
        exact .inr (eq_of_mem_update hnot hq)
    rw [hL] at hlists'
    refine ⟨_, .parkTwice stop port type next (dynamic adaptive.1 adaptive.2) hops room unused
      adaptive.1 adaptive.2 hport hrouter hchunks hocc hcount ?_,
      h.move (hlists'.congr rfl rfl rfl rfl) hchunks
        (hlinks.trans (fun b hb hbL => hlinks' b hb hbL) fun q b hb => ?_) hmem (fun q hq => ?_)
        (fun port' hp => ?_) fun port' vc hp hin => ?_⟩
    · by_cases hstart : s.inSendLoop port = 0 ∧ s.HasEscape p port
      · exact .inl ⟨hstart, by simp [hstart], by simp [hstart]⟩
      · have hstart' : ¬ (s.HasEscape p port ∧ s.inSendLoop port = 0) :=
          fun hs => hstart ⟨hs.2, hs.1⟩
        exact .inr ⟨hstart, by simp [hstart'], by simp [hstart']⟩
    · by_cases hb' : b = env.fresh
      · exact .inl hb'
      · exact .inr ((mem_update_append hb' q).1 hb)
    · rcases hself q hq with rfl | rfl
      · exact ⟨rfl, rfl⟩
      · exact ⟨rfl, rfl⟩
    · rw [update_of_ne (by simp)]
      exact mem_update_self
    · have haltq : (waitingChunk p msg stop (some port)).altqPort = port := rfl
      rw [haltq, update_self]
      simp

theorem Router.leastLoaded_mem {hops : List NextHop} {vcs : List ℕ} {start : NextHop × ℕ}
    (hstart : start.1 ∈ hops ∧ start.2 ∈ vcs) :
    (s.leastLoaded hops vcs start).1 ∈ hops ∧ (s.leastLoaded hops vcs start).2 ∈ vcs := by
  have hall : ∀ x ∈ hops.flatMap (fun h => vcs.map fun v => (h, v)), x.1 ∈ hops ∧ x.2 ∈ vcs := by
    intro x hx
    obtain ⟨h, hh, hx⟩ := List.mem_flatMap.1 hx
    obtain ⟨v, hv, rfl⟩ := List.mem_map.1 hx
    exact ⟨hh, hv⟩
  unfold Router.leastLoaded
  generalize hops.flatMap (fun h => vcs.map fun v => (h, v)) = l at hall ⊢
  induction l generalizing start with
  | nil => exact hstart
  | cons x l ih =>
    rw [List.foldl_cons]
    refine ih ?_ fun y hy => hall y (List.mem_cons_of_mem _ hy)
    split
    · exact hall x List.mem_cons_self
    · exact hstart

theorem dim_of_mem_portOptions {pos dest : List ℕ} {hop : NextHop}
    (h : hop ∈ p.portOptions pos dest) : hop.dim ≠ none := by
  obtain ⟨i, -, h⟩ := List.mem_flatMap.1 h
  obtain ⟨port, -, rfl⟩ := List.mem_map.1 h
  simp

theorem one_mem_drop (h : 2 ≤ p.numVcs) : 1 ∈ (List.range p.numVcs).drop 1 := by
  rw [List.mem_iff_getElem?]
  exact ⟨0, by rw [List.getElem?_drop, List.getElem?_range (by omega)]⟩

theorem getNextStop_dstDim (next : getNextStop p self s msg = some stop) :
    stop.dstDim = none → stop.port = msg.destTerminal % p.numCn ∧ stop.vc = 0 := by
  obtain ⟨src, -, rfl⟩ := Option.map_eq_some_iff.1 next
  generalize hoptions : p.portOptions (p.dimPosition self)
    (p.dimPosition (msg.destTerminal / p.numCn)) = options
  cases options with
  | nil => exact fun _ => ⟨rfl, rfl⟩
  | cons hop hops =>
    intro hdim
    by_cases hstatic : p.routing = .static
    · simp only [hstatic, if_true] at hdim
      have hmem := (@Router.leastLoaded_mem s (hop :: hops) (List.range p.numVcs) (hop, 0)
        ⟨List.mem_cons_self, List.mem_range.2 p.numVcs_pos⟩).1
      rw [← hoptions] at hmem
      rw [← hoptions] at hdim
      exact absurd hdim (dim_of_mem_portOptions hmem)
    · simp only [hstatic, if_false] at hdim
      have hadaptive : p.routing = .adaptive := by
        cases hr : p.routing with
        | static => exact absurd hr hstatic
        | adaptive => rfl
      have hmem := (@Router.leastLoaded_mem s (hop :: hops) ((List.range p.numVcs).drop 1) (hop, 1)
        ⟨List.mem_cons_self, one_mem_drop (p.adaptive_vcs hadaptive)⟩).1
      rw [← hoptions] at hmem
      rw [← hoptions] at hdim
      exact absurd hdim (dim_of_mem_portOptions hmem)

theorem not_isAlt_of_getNextStop (next : getNextStop p self s msg = some stop)
    (dynamic : p.routing ≠ .static → stop.dstDim ≠ none → stop.vc ≠ 0) :
    ¬ p.IsAlt stop.port stop.vc := by
  rintro ⟨hadaptive, hvc, hport⟩
  by_cases hdim : stop.dstDim = none
  · -- the chunk is for a terminal of this router
    have hlt := Nat.mod_lt msg.destTerminal p.numCn_pos
    have hstop := (getNextStop_dstDim next hdim).1
    omega
  · exact dynamic hadaptive hdim hvc

theorem routerPacketReceive_step (h : s.Ok p L) (type : msg.type = .rArrive)
    (hr : routerPacketReceive p env self s msg = some r) :
    ∃ L', RouterStep p env self s L msg r.state L' r.outs ∧ r.state.Ok p L' := by
  simp only [routerPacketReceive, Option.bind_eq_some_iff, Option.ite_none_left_eq_some,
    Option.ite_none_right_eq_some] at hr
  obtain ⟨stop, next, hdynamic, hused, hops, hr⟩ := hr
  have dynamic : p.routing ≠ .static → stop.dstDim ≠ none → stop.vc ≠ 0 :=
    fun h1 h2 h3 => hdynamic ⟨h1, h2, h3⟩
  have unused : s.chunks env.fresh = none := by simpa using hused
  split at hr
  · exact receivePlaced_step h type next dynamic hops ‹_› unused hr
  · exact receiveParked_step h type next dynamic (not_isAlt_of_getNextStop next dynamic) hops ‹_›
      unused hr

/-! ### Departure -/

variable {port : ℕ}

theorem entries_eq_nil (h : s.Ok p L) (hentries : s.entries p port = []) :
    ∀ vc < p.numVcs, L (.pending port vc) = [] := by
  intro vc hvc
  rw [Router.entries, List.filterMap_eq_nil_iff] at hentries
  have hhead := hentries vc (List.mem_range.2 hvc)
  rw [Option.map_eq_none_iff] at hhead
  exact (h.lists.isList (.pending port vc) trivial).head_eq_none.1 hhead

theorem pick_entries (env : Env) (h : s.Ok p L) (hentries : s.entries p port ≠ []) (pos : ℤ) :
    (env.pick pos (s.entries p port)).1 < p.numVcs ∧
      ∃ l, L (.pending port (env.pick pos (s.entries p port)).1) =
        (env.pick pos (s.entries p port)).2 :: l := by
  have hmem : env.pick pos (s.entries p port) ∈ s.entries p port := by
    have hlen := List.length_pos_iff_ne_nil.2 hentries
    have hlt := Nat.mod_lt (env.rand pos) hlen
    rw [Env.pick, List.getD_eq_getElem?_getD, List.getElem?_eq_getElem hlt]
    exact List.getElem_mem hlt
  obtain ⟨vc, hvc, hhead⟩ := List.mem_filterMap.1 hmem
  obtain ⟨a, ha, hpick⟩ := Option.map_eq_some_iff.1 hhead
  rw [← hpick]
  refine ⟨List.mem_range.1 hvc, ?_⟩
  have hlist := (h.lists.isList (.pending port vc) trivial).head
  rw [Router.endsOf, ha] at hlist
  exact List.head?_eq_some_iff.1 hlist.symm

theorem Router.Ok.eq_pending (h : s.Ok p L) {vc : ℕ}
    (ha : a ∈ L (.pending port vc)) (hq : a ∈ L q) : q = .pending port vc := by
  cases q with
  | alt port' =>
    obtain ⟨c, hc, -, -, hin⟩ := h.chunk _ a ha
    have hfits : c.inAltQ = true ∧ c.altqPort = port' := h.fits hq hc
    rw [hin] at hfits
    cases hfits.1
  | pending | queued => exact h.lists.inj _ _ a hq ha rfl

/-! An element is taken out of its lists. -/

theorem mem_takeOut {b : ℕ} (hb : b ≠ a) (q : Lane) : b ∈ takeOut L a q ↔ b ∈ L q :=
  List.mem_erase_of_ne hb

theorem Router.Lists.not_mem_takeOut (h : s.Lists p L) (a : ℕ) (q : Lane) : a ∉ takeOut L a q := by
  by_cases hq : q.Valid p
  · exact (h.isList q hq).nodup.not_mem_erase
  · simp [takeOut, h.nil q hq]

theorem takeOut_of_not_mem (h : a ∉ L q) : takeOut L a q = L q :=
  List.erase_of_not_mem h

theorem erase_split {l₁ l₂ : List ℕ} (h : (l₁ ++ a :: l₂).Nodup) :
    (l₁ ++ a :: l₂).erase a = l₁ ++ l₂ := by
  have hnot : a ∉ l₁ := fun ha => (List.nodup_append.1 h).2.2 a ha a List.mem_cons_self rfl
  rw [List.erase_append_right _ hnot, List.erase_cons_head]

theorem Router.Ok.takeOut_pending (h : s.Ok p L) {vc : ℕ} (hl : L (.pending port vc) = a :: l) :
    update L (.pending port vc) l = takeOut L a := by
  funext q
  by_cases hq : q = .pending port vc
  · subst hq
    rw [update_self, takeOut, hl, List.erase_cons_head]
  · rw [update_of_ne hq, takeOut_of_not_mem]
    exact fun hmem => hq (h.eq_pending (by simp [hl]) hmem)

theorem Router.Ok.takeOut_parked (h : s.Ok p L) {vc port' : ℕ} {l₁ l₂ l₃ l₄ : List ℕ}
    (hq : L (.queued port vc) = l₁ ++ a :: l₂) (halt : L (.alt port') = l₃ ++ a :: l₄) :
    update (update L (.alt port') (l₃ ++ l₄)) (.queued port vc) (l₁ ++ l₂) =
      takeOut L a := by
  have hmem : a ∈ L (.queued port vc) := by simp [hq]
  have hmem' : a ∈ L (.alt port') := by simp [halt]
  funext q
  by_cases h1 : q = .queued port vc
  · subst h1
    have hnodup := (h.lists.isList _ (h.lists.valid_of_mem hmem)).nodup
    rw [hq] at hnodup
    rw [update_self, takeOut, hq, erase_split hnodup]
  · rw [update_of_ne h1]
    by_cases h2 : q = .alt port'
    · subst h2
      have hnodup := (h.lists.isList _ (h.lists.valid_of_mem hmem')).nodup
      rw [halt] at hnodup
      rw [update_self, takeOut, halt, erase_split hnodup]
    · rw [update_of_ne h2, takeOut_of_not_mem]
      intro hq'
      cases q with
      | alt => exact h2 (h.lists.inj _ _ a hq' hmem' rfl)
      | pending | queued => exact h1 (h.lists.inj _ _ a hq' hmem rfl)

variable {c : Chunk}

theorem takeEscape_spec (h : s.Ok p L) (hescapes : s.Escapes p port)
    (htake : takeEscape p s port = some (a, c, s')) :
    ∃ l, L (.alt port) = a :: l ∧ s.chunks a = some c ∧ a ∈ L (.queued c.port c.index) ∧
      s'.Lists p (takeOut L a) ∧
      s'.chunks = update s.chunks a (some { c with inAltQ := false }) ∧
      s'.vcOccupancy = update s.vcOccupancy (port, 0)
        (s.vcOccupancy (port, 0) + p.chunkSize) ∧
      s'.queuedCount = update s.queuedCount c.port
        (s.queuedCount c.port - p.chunkSize) ∧
      s'.inSendLoop = s.inSendLoop ∧ Router.Untouched L a s s' := by
  have hvalid : p.IsAlt port 0 := ⟨hescapes.2.1, rfl, hescapes.1⟩
  have hlist := h.lists.isList (.alt port) hvalid
  obtain ⟨a', l, hl⟩ : ∃ a' l, L (.alt port) = a' :: l := by
    refine List.exists_cons_of_ne_nil fun hnil => hescapes.2.2.2 ?_
    exact hlist.head_eq_none.2 hnil
  obtain ⟨x, hret, hlists, -, -, -, hlinks⟩ := h.lists.returnHead hl
  rw [takeEscape, hret, Option.bind_some] at htake
  obtain ⟨c', hc', htake⟩ := Option.map_eq_some_iff.1 htake
  rw [Router.chunks_setList] at hc'
  simp only [Prod.mk.injEq] at htake
  obtain ⟨rfl, rfl, rfl⟩ := htake
  have hmem := h.altQueued (by simp [hl] : a' ∈ L (.alt port)) hc'
  obtain ⟨l₁, l₂, hparked⟩ := List.append_of_mem hmem
  have hne : Lane.queued c'.port c'.index ≠ .alt port := by simp
  have hparked' : update L (.alt port) l (.queued c'.port c'.index) = l₁ ++ a' :: l₂ := by
    rw [update_of_ne hne, hparked]
  obtain ⟨y, -, hdel, hlists', -, hlinks'⟩ :=
    (hlists.setChunk a' (some { c' with inAltQ := false })).delete hparked'
  have htakeOut := h.takeOut_parked hparked (hl.trans (List.nil_append _).symm)
  rw [List.nil_append] at htakeOut
  rw [htakeOut] at hlists'
  refine ⟨l, hl, hc', hmem, ?_, ?_, rfl, rfl, ?_, ?_⟩
  · rw [hdel]
    exact hlists'.congr rfl rfl rfl rfl
  · rw [hdel]
    rfl
  · rw [hdel]
    rfl
  · rw [hdel]
    refine ((hlinks.trans (.setChunk L _ _) fun q b hb => .inr hb).trans hlinks' fun q b hb => ?_)
    by_cases hq : q = .alt port
    · subst hq
      rw [update_self] at hb
      exact .inr (by simp [hl, hb])
    · rw [update_of_ne hq] at hb
      exact .inr hb

theorem putOnLink_spec {vc : ℕ} {bf : Bf} {outs : List Out}
    (hr : putOnLink p env self s msg a vc bf outs = some r) :
    ∃ c dest ts ts', s.chunks a = some c ∧ sendsTo p self msg.vcIndex c.msg = some dest ∧
      r.state.chunks = s.chunks ∧ r.state.vcOccupancy = s.vcOccupancy ∧
      r.state.queuedCount = s.queuedCount ∧ r.state.inSendLoop = s.inSendLoop ∧
      r.outs = outs ++ [.event dest ts (sentMsg p self msg.vcIndex vc c.msg),
        rSendEvent env self msg.vcIndex ts'] ∧
      ∀ L', s.Lists p L' → r.state.Lists p L' ∧ ∀ s₀ L₀ b, Router.Untouched L₀ b s₀ s →
        Router.Untouched L₀ b s₀ r.state := by
  obtain ⟨c, hc, hr⟩ := Option.bind_eq_some_iff.1 hr
  obtain ⟨dest, hdest, rfl⟩ := Option.map_eq_some_iff.1 hr
  exact ⟨c, dest, _, _, hc, hdest, rfl, rfl, rfl, rfl, rfl, fun L' hL' =>
    ⟨hL'.congr rfl rfl rfl rfl, fun s₀ L₀ b h => h⟩⟩

theorem routerPacketSend_step (h : s.Ok p L) (type : msg.type = .rSend)
    (hr : routerPacketSend p env self s msg = some r) :
    ∃ L', RouterStep p env self s L msg r.state L' r.outs ∧ r.state.Ok p L' := by
  simp only [routerPacketSend] at hr
  split at hr
  · rename_i hentries
    have hempty := entries_eq_nil h hentries
    split at hr
    · rename_i hescapes
      obtain ⟨⟨a, c, s₂⟩, htake, hr⟩ := Option.bind_eq_some_iff.1 hr
      obtain ⟨l, hl, hc, hparked, hlists, hchunks, hocc, hcount, hloop, hlinks⟩ :=
        takeEscape_spec h hescapes htake
      obtain ⟨c', dest, ts, ts', hc', hdest, hchunks', hocc', hcount', hloop', houts, hkeep⟩ :=
        putOnLink_spec hr
      obtain ⟨hlists', hkeep⟩ := hkeep _ hlists
      rw [hchunks, update_self] at hc'
      obtain rfl := Option.some.inj hc'
      rw [houts]
      refine ⟨_, .escape a c l dest ts ts' type hempty hescapes hl hc hparked hdest
        (hchunks'.trans hchunks) (hocc'.trans hocc) (hcount'.trans hcount) (hloop'.trans hloop), ?_⟩
      exact h.move hlists' (hchunks'.trans hchunks) (hkeep _ _ _ hlinks)
        (fun q b hb => mem_takeOut hb q) (fun q hq => absurd hq (h.lists.not_mem_takeOut a q))
        (fun port hp => absurd hp (h.lists.not_mem_takeOut a _))
        fun port vc hp => absurd hp (h.lists.not_mem_takeOut a _)
    · rename_i hwaits
      obtain rfl := Option.some.inj hr
      exact ⟨L, .halt type hempty hwaits rfl rfl rfl rfl, h.congr rfl rfl rfl rfl rfl⟩
  · rename_i hentries
    obtain ⟨hvc, l, hl⟩ := pick_entries env h hentries s.rngDraws
    generalize env.pick s.rngDraws (s.entries p msg.vcIndex) = entry at hvc hl hr
    obtain ⟨x, hret, hlists, -, -, -, hlinks⟩ := h.lists.returnHead hl
    rw [hret, Option.bind_some] at hr
    obtain ⟨c, dest, ts, ts', hc, hdest, hchunks, hocc, hcount, hloop, houts, hkeep⟩ :=
      putOnLink_spec hr
    obtain ⟨hlists', hkeep⟩ := hkeep _ hlists
    rw [Router.chunks_setList] at hc hchunks
    rw [houts]
    rw [h.takeOut_pending hl] at hlists'
    refine ⟨_, .send entry.2 entry.1 c l dest ts ts' type hvc hl hc hdest hchunks
      (by simpa using hocc)
      (by simpa using hcount) (by simpa using hloop), ?_⟩
    exact h.move hlists' (hchunks.trans (update_eq_self_iff.2 hc.symm).symm)
      (hkeep _ _ _ hlinks) (fun q b hb => mem_takeOut hb q)
      (fun q hq => absurd hq (h.lists.not_mem_takeOut _ q))
      (fun port hp => absurd hp (h.lists.not_mem_takeOut _ _))
      fun port vc hp => absurd hp (h.lists.not_mem_takeOut _ _)

/-! ### Credits -/

theorem Router.resumes_iff (h : s.Ok p L) (port vc : ℕ) : s.Resumes p port vc ↔
    s.inSendLoop port = 0 ∧ (L (.pending port vc) ≠ [] ∨
      (s.HasEscape p port ∧ p.front L port ≠ [])) := by
  have hpending : (s.pendingMsgs (port, vc)).head = none ↔ L (.pending port vc) = [] :=
    (h.lists.isList (.pending port vc) trivial).head_eq_none
  have hfront : (s.queuedMsgs (port, 0)).head = none ↔ p.front L port = [] := by
    by_cases halt : p.IsAlt port 0
    · rw [Param.front, if_pos halt]
      exact (h.lists.isList (.alt port) halt).head_eq_none
    · rw [Param.front, if_neg halt]
      exact (h.lists.isList (.queued port 0) halt).head_eq_none
  rw [Router.Resumes, ne_eq, ne_eq, hpending, hfront]

theorem Router.resume_spec (env : Env) (self : ℕ) (h : s.Ok p L) (port vc : ℕ) :
    (s.resume p env self port vc).1.Ok p L ∧
      (s.resume p env self port vc).1.chunks = s.chunks ∧
      (s.resume p env self port vc).1.vcOccupancy = s.vcOccupancy ∧
      (s.resume p env self port vc).1.queuedCount = s.queuedCount ∧
      Wakes env self s (s.resume p env self port vc).1 port (L (.pending port vc) ≠ [] ∨
        (s.HasEscape p port ∧ p.front L port ≠ [])) (s.resume p env self port vc).2 := by
  have hiff := resumes_iff h port vc
  unfold Router.resume
  split
  · rename_i hres
    exact ⟨h.congr rfl rfl rfl rfl rfl, rfl, rfl, rfl, .inl ⟨hiff.1 hres, rfl, rfl⟩⟩
  · rename_i hres
    exact ⟨h, rfl, rfl, rfl, .inr ⟨fun hw => hres (hiff.2 hw), rfl, rfl⟩⟩

theorem Wakes.congr {s₀ : Router} {cond cond' : Prop} {outs : List Out}
    (h : Wakes env self s s' port cond outs) (hloop : s₀.inSendLoop = s.inSendLoop)
    (hlat : s₀.latDraws = s.latDraws) (hcond : cond ↔ cond') :
    Wakes env self s₀ s' port cond' outs := by
  rw [Wakes, hloop, hlat, ← hcond]
  exact h

theorem Router.leaveAlt_spec (h : s.Ok p L) {vc : ℕ}
    (hl : L (.queued port vc) = a :: l) (hc : s.chunks a = some c)
    (hlists : s'.Lists p (update L (.queued port vc) l)) :
    (s'.leaveAlt a c).Lists p (takeOut L a) ∧ (s'.leaveAlt a c).links = s'.links ∧
      (s'.leaveAlt a c).chunks = s'.chunks ∧
      Router.Untouched (update L (.queued port vc) l) a s' (s'.leaveAlt a c) := by
  have hmem : a ∈ L (.queued port vc) := by simp [hl]
  unfold Router.leaveAlt
  split
  · rename_i hin
    obtain ⟨l₁, l₂, halt⟩ := List.append_of_mem (h.queuedAlt hmem hc hin)
    have hne : Lane.alt c.altqPort ≠ .queued port vc := by simp
    have halt' : update L (.queued port vc) l (.alt c.altqPort) = l₁ ++ a :: l₂ := by
      rw [update_of_ne hne, halt]
    obtain ⟨y, -, hdel, hlists', -, hlinks'⟩ := hlists.delete halt'
    have htakeOut := h.takeOut_parked (hl.trans (List.nil_append _).symm) halt
    rw [List.nil_append, update_comm hne] at htakeOut
    rw [htakeOut] at hlists'
    rw [hdel]
    exact ⟨hlists', rfl, rfl, hlinks'⟩
  · rename_i hin
    have htakeOut : update L (.queued port vc) l = takeOut L a := by
      funext q
      by_cases hq : q = .queued port vc
      · subst hq
        rw [update_self, takeOut, hl, List.erase_cons_head]
      · rw [update_of_ne hq, takeOut_of_not_mem]
        intro hmem'
        cases q with
        | alt port' =>
          have hfits : c.inAltQ = true ∧ c.altqPort = port' := h.fits hmem' hc
          exact hin hfits.1
        | pending | queued => exact hq (h.lists.inj _ _ a hmem' hmem rfl)
    rw [← htakeOut]
    exact ⟨hlists, rfl, rfl, fun b _ _ q => ⟨rfl, rfl⟩⟩

theorem Router.leaveAlt_loops (s : Router) (a : ℕ) (c : Chunk) :
    (s.leaveAlt a c).inSendLoop = s.inSendLoop ∧ (s.leaveAlt a c).latDraws = s.latDraws := by
  unfold Router.leaveAlt
  split <;> exact ⟨rfl, rfl⟩

theorem passTo_spec (h : s.Ok p L) {vc : ℕ}
    (hl : L (.queued port vc) = a :: l) (hc : s.chunks a = some c)
    (hs' : passTo p s port vc a c = some s') :
    s'.Ok p (update (takeOut L a) (.pending port vc) (L (.pending port vc) ++ [a])) ∧
      s'.chunks = update s.chunks a (some { c with inAltQ := false }) ∧
      s'.vcOccupancy = update s.vcOccupancy (port, vc)
        (s.vcOccupancy (port, vc) + p.chunkSize) ∧
      s'.queuedCount = update s.queuedCount port (s.queuedCount port - p.chunkSize) ∧
      s'.inSendLoop = s.inSendLoop ∧ s'.latDraws = s.latDraws := by
  obtain ⟨x, hret, hlists, -, hnext, hprev, hlinks⟩ := h.lists.returnHead hl
  have hfits : c.port = port ∧ c.index = vc := h.fits (q := .queued port vc) (by simp [hl]) hc
  have hc' : { c with inAltQ := false, port := port, index := vc } =
      { c with inAltQ := false } := by
    rw [← hfits.1, ← hfits.2]
  rw [passTo, hret, Option.bind_some] at hs'
  simp only [hc'] at hs'
  obtain ⟨hlists', hsame, hchunks, hlinks'⟩ := Router.leaveAlt_spec h hl hc hlists
  have hfree : ∀ q : Lane, a ∉ takeOut L a q := h.lists.not_mem_takeOut a
  obtain ⟨y, -, happ, hlists'', -, hlinks''⟩ :=
    (hlists'.setChunk a (some { c with inAltQ := false })).append (q := .pending port vc) trivial
      (fun q' _ => hfree q') (by
        change ((s.setList x (.queued port vc)).leaveAlt a c).links.next a = none
        rw [hsame]
        exact hnext) (by
        change ((s.setList x (.queued port vc)).leaveAlt a c).links.prev a = none
        rw [hsame]
        exact hprev)
  rw [happ] at hs'
  obtain rfl := Option.some.inj hs'
  have hpending : takeOut L a (.pending port vc) = L (.pending port vc) := by
    refine takeOut_of_not_mem fun hmem => ?_
    have hq := h.eq_pending hmem (by simp [hl] : a ∈ L (.queued port vc))
    cases hq
  rw [hpending] at hlists''
  have hlane : ∀ q, a ∈ update (takeOut L a) (.pending port vc)
      (L (.pending port vc) ++ [a]) q → q = .pending port vc :=
    fun q hq => eq_of_mem_update hfree hq
  have hchunks' : ((((s.setList x (.queued port vc)).leaveAlt a c).setChunk a
      (some { c with inAltQ := false })).setList y (.pending port vc)).chunks =
      update s.chunks a (some { c with inAltQ := false }) := by
    rw [Router.chunks_setList, Router.chunks_setChunk, hchunks, Router.chunks_setList]
  have huntouched : Router.Untouched L a s ((((s.setList x (.queued port vc)).leaveAlt a c).setChunk
      a (some { c with inAltQ := false })).setList y (.pending port vc)) := by
    refine ((hlinks.trans hlinks' fun q b hb => ?_).trans (.setChunk L _ _) fun q b hb =>
      .inr hb).trans hlinks'' fun q b hb => .inr (List.mem_of_mem_erase hb)
    by_cases hba : b = a
    · exact .inl hba
    · by_cases hq : q = .queued port vc
      · subst hq
        rw [update_self] at hb
        exact .inr (by simp [hl, hb])
      · rw [update_of_ne hq] at hb
        exact .inr hb
  obtain ⟨hloop, hlat⟩ := (s.setList x (.queued port vc)).leaveAlt_loops a c
  refine ⟨h.move (hlists''.congr rfl rfl rfl rfl) hchunks' huntouched (fun q b hb => ?_)
    (fun q hq => ?_) (fun port' hp => ?_) fun port' vc' hp => ?_, hchunks', rfl, rfl, hloop, hlat⟩
  · rw [← hpending, mem_update_append hb, mem_takeOut hb]
  · rw [hlane q hq]
    exact ⟨hfits.1, hfits.2, rfl⟩
  · cases hlane _ hp
  · cases hlane _ hp

theorem Router.passed_spec (h : s.Ok p L) {vc : ℕ} {head : Option (ℕ × Chunk)}
    (hhead : (s.release p env.now port vc).passed p port vc = some head) :
    (head = none → s.Held p env L port vc) ∧ ∀ a c, head = some (a, c) →
      ¬ p.IsAlt port vc ∧ ∃ l, L (.queued port vc) = a :: l ∧ s.chunks a = some c ∧
        (s.release p env.now port vc).Passes p port vc c := by
  unfold Router.passed at hhead
  split at hhead
  · cases hhead
    exact ⟨fun _ => .inl ‹_›, fun a c h => (nomatch h)⟩
  · rename_i halt
    have hlist : (s.queuedMsgs (port, vc)).head = (L (.queued port vc)).head? :=
      (h.lists.isList (.queued port vc) halt).head
    split at hhead
    · rename_i hnone
      cases hhead
      refine ⟨fun _ => .inr (.inl ?_), fun a c h => (nomatch h)⟩
      exact List.head?_eq_none_iff.1 (hlist.symm.trans hnone)
    · rename_i a hsome
      obtain ⟨l, hl⟩ := List.head?_eq_some_iff.1 (hlist.symm.trans hsome)
      obtain ⟨c, hc, rfl⟩ := Option.map_eq_some_iff.1 hhead
      by_cases hpasses : (s.release p env.now port vc).Passes p port vc c
      · rw [if_pos hpasses]
        refine ⟨fun hnone => (nomatch hnone), fun a' c' heq => ?_⟩
        cases heq
        exact ⟨halt, l, hl, hc, hpasses⟩
      · rw [if_neg hpasses]
        exact ⟨fun _ => .inr (.inr ⟨a, l, c, hl, hc, hpasses⟩), fun a' c' heq => (nomatch heq)⟩

theorem routerBufUpdate_step (h : s.Ok p L) (type : msg.type = .rBuffer)
    (hr : routerBufUpdate p env self s msg = some r) :
    ∃ L', RouterStep p env self s L msg r.state L' r.outs ∧ r.state.Ok p L' := by
  have h₁ : (s.release p env.now msg.vcIndex msg.outputChan).Ok p L := h.congr rfl rfl rfl rfl rfl
  simp only [routerBufUpdate] at hr
  obtain ⟨head, hhead, hr⟩ := Option.bind_eq_some_iff.1 hr
  cases head with
  | none =>
    obtain rfl := Option.some.inj hr
    obtain ⟨hok, hchunks, hocc, hcount, hwakes⟩ :=
      Router.resume_spec env self h₁ msg.vcIndex msg.outputChan
    refine ⟨L, .release type ?_ hchunks hocc hcount (hwakes.congr rfl rfl ?_), hok⟩
    · exact (Router.passed_spec h hhead).1 rfl
    · simp only [Router.HasEscape, hocc]
  | some x =>
    obtain ⟨a, c⟩ := x
    obtain ⟨s₂, hs₂, rfl⟩ := Option.map_eq_some_iff.1 hr
    obtain ⟨halt, l, hl, hc, hpasses⟩ := (Router.passed_spec h hhead).2 a c rfl
    obtain ⟨hok₂, hchunks₂, hocc₂, hcount₂, hloop₂, hlat₂⟩ := passTo_spec h₁ hl hc hs₂
    obtain ⟨hok, hchunks, hocc, hcount, hwakes⟩ :=
      Router.resume_spec env self hok₂ msg.vcIndex msg.outputChan
    refine ⟨_, .pass a c l type halt hl hc hpasses (hchunks.trans hchunks₂) ?_
      (hcount.trans hcount₂) (hwakes.congr hloop₂.symm hlat₂.symm ?_), hok⟩
    · rw [hocc, hocc₂]
      simp [Router.release]
    · simp

/-- **What an event does to a router.** -/
theorem routerEvent_step (h : s.Ok p L) (hr : routerEvent p env self s msg = some r) :
    ∃ L', RouterStep p env self s L msg r.state L' r.outs ∧ r.state.Ok p L' := by
  unfold routerEvent at hr
  split at hr
  · exact routerPacketSend_step h ‹_› hr
  · exact routerPacketReceive_step h ‹_› hr
  · exact routerBufUpdate_step h ‹_› hr
  · cases hr

end

end CodesSim.Mesh
