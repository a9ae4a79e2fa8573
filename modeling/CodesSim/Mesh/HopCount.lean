import CodesSim.Mesh.Hops
import CodesSim.Mesh.Network

/-!
# The hops of a chunk

In every run the hops that a chunk has counted and those that are left to it are not more than the
dimensions have together (`inFlight_counted`), so that the bound that `routerPacketReceive` asserts
holds (`routing_converges`).
-/

namespace CodesSim.Mesh

open Function
open LpSystem (All)

variable (p : Param)

/-- A chunk that leaves router `n` by port `port` has counted no more hops than leave those to
go. -/
def Within (n port : ℕ) (c : Msg) : Prop :=
  ∀ r, p.linkConnections n port = some (.router r) →
    c.myNHop + p.hopsLeft r c.destTerminal ≤ p.nDims * p.gap

/-- So has one on its way to a router. -/
def Counted : LpName → Msg → Prop
  | .terminal _, _ => True
  | .router r, msg =>
    msg.type = .rArrive → msg.myNHop + p.hopsLeft r msg.destTerminal ≤ p.nDims * p.gap

def Lane.port : Lane → ℕ
  | .pending port _ | .queued port _ | .alt port => port

/-- The chunks of router `n`, each in the lists of the ports by which it may leave. -/
def ChunksWithin (n : ℕ) (s : Router) (L : Lane → List ℕ) : Prop :=
  ∀ q, ∀ a ∈ L q, ∀ c, s.chunks a = some c → Within p n q.port c.msg

/-- What an LP holds: the chunks of a terminal have made no hop. -/
def LpCounted : ∀ i, LpState i → Prop
  | .terminal _, (s : Terminal) => ∀ vc, ∀ c ∈ s.terminalMsgs vc, c.myNHop = 0
  | .router n, (s : Router) => ∃ L, s.Ok p L ∧ ChunksWithin p n s L

variable {p} {env : Env} {n : ℕ} {msg : Msg}

theorem counted_of_type {d : LpName} (h : msg.type ≠ .rArrive) : Counted p d msg := by
  cases d with
  | terminal => trivial
  | router => exact fun htype => absurd htype h

/-! ### The terminal -/

section

variable {s : Terminal}

variable (p) in
/-- The chunks of a terminal have made no hop, nor has one that it sends. -/
structure TermCounted (s' : Terminal) (outs : List Out) : Prop where
  chunks : ∀ vc, ∀ c ∈ s'.terminalMsgs vc, c.myNHop = 0
  sends : ∀ x ∈ outs.filterMap flight, Counted p x.1 x.2

variable {r : Result Terminal}

section

variable (hs : ∀ vc, ∀ c ∈ s.terminalMsgs vc, c.myNHop = 0)
include hs

theorem packetGenerate_counted
    (h : packetGenerate p env n s msg = some r) : TermCounted p r.state r.outs := by
  simp only [packetGenerate, Option.ite_none_left_eq_some, Option.map_eq_some_iff] at h
  obtain ⟨-, stats, -, rfl⟩ := h
  constructor
  case chunks =>
    intro vc c hc
    by_cases hvc : vc = 0
    · subst hvc
      simp only [update_self, List.mem_append] at hc
      obtain hc | hc := hc
      · exact hs 0 c hc
      · obtain ⟨i, -, rfl⟩ := List.mem_map.1 hc
        rfl
    · simp only [update_of_ne hvc] at hc
      exact hs vc c hc
  case sends =>
    by_cases hroom : HasRoom p s msg <;> by_cases hstart : s.inSendLoop = 0 <;>
      simp [hroom, hstart, tSendEvent, Counted, List.filterMap_cons]

theorem packetSend_counted :
    TermCounted p (packetSend p env n s msg).state (packetSend p env n s msg).outs := by
  have hstop : TermCounted p (stopSending env s msg).state (stopSending env s msg).outs :=
    ⟨hs, by simp [stopSending]⟩
  simp only [packetSend]
  split
  · exact hstop
  · split
    · exact hstop
    · rename_i c rest hhead
      generalize env.pick s.rngDraws (s.sendVcs p) = vc at hhead
      have hzero : c.myNHop = 0 := hs vc c (hhead ▸ List.mem_cons_self)
      have hsent : Counted p (.router (n / p.numCn)) (toRouter n vc c) := by
        intro _
        change c.myNHop + p.hopsLeft _ c.destTerminal ≤ _
        rw [hzero, Nat.zero_add]
        exact p.hopsLeft_le _ _
      constructor
      case chunks =>
        intro vc' c' hc'
        by_cases hvc : vc' = vc
        · subst hvc
          simp only [sendChunk, update_self] at hc'
          exact hs vc' c' (hhead ▸ List.mem_cons_of_mem _ hc')
        · simp only [sendChunk, update_of_ne hvc] at hc'
          exact hs vc' c' hc'
      case sends =>
        by_cases hi : s.issueIdle = 0 <;> by_cases hlocal : c.HasLocal p <;>
          simp [sendChunk, hi, hlocal, tSendEvent, hsent, List.filterMap_cons] <;> trivial

theorem packetArrive_counted
    (h : packetArrive p env n s msg = some r) : TermCounted p r.state r.outs := by
  simp only [packetArrive, Option.ite_none_right_eq_some, Option.bind_eq_some_iff,
    Option.map_eq_some_iff] at h
  obtain ⟨-, i, -, stats, -, rfl⟩ := h
  have hremote : ∀ s' data, flight (sendRemoteEvent env s' msg data) = none := by
    intro s' data
    rw [sendRemoteEvent]
    split <;> rfl
  have hcredit (d : LpName) : Counted p d { env.blank with
      type := .rBuffer, vcIndex := msg.vcIndex, outputChan := msg.outputChan } :=
    counted_of_type (by simp)
  refine ⟨hs, ?_⟩
  by_cases hd : Delivers p s msg <;> simp [hd, hremote, arrivalCredit, hcredit]

theorem terminalEvent_counted
    (h : terminalEvent p env n s msg = some r) : TermCounted p r.state r.outs := by
  unfold terminalEvent at h
  split at h
  · exact packetGenerate_counted hs h
  · exact packetArrive_counted hs h
  · obtain rfl := Option.some.inj h
    exact packetSend_counted hs
  · obtain rfl := Option.some.inj h
    refine ⟨hs, ?_⟩
    by_cases hstart : s.Resumes p <;> simp [terminalBufUpdate, hstart, tSendEvent, Counted]
  · cases h

end

end

/-! ### The router -/

section

variable {s s' : Router} {L L' : Lane → List ℕ} {outs : List Out}

/-- One chunk is written; the other ones are in lists in which they have been before. -/
theorem ChunksWithin.update {a : ℕ} {c : Chunk} (hs : ChunksWithin p n s L)
    (hchunks : s'.chunks = update s.chunks a (some c))
    (hold : ∀ q, ∀ b ∈ L' q, b ≠ a → b ∈ L q) (hnew : ∀ q, a ∈ L' q → Within p n q.port c.msg) :
    ChunksWithin p n s' L' := by
  intro q b hb c' hc'
  rw [hchunks] at hc'
  by_cases hba : b = a
  · subst hba
    rw [update_self] at hc'
    cases hc'
    exact hnew q hb
  · rw [update_of_ne hba] at hc'
    exact hs q b (hold q b hb hba) c' hc'

theorem ChunksWithin.mono (hs : ChunksWithin p n s L) (hchunks : s'.chunks = s.chunks)
    (hold : ∀ q, ∀ b ∈ L' q, b ∈ L q) : ChunksWithin p n s' L' :=
  fun q b hb c hc => hs q b (hold q b hb) c (hchunks ▸ hc)

theorem Within.sent {port vc : ℕ} {c : Msg} {dest : LpName} (h : Within p n port c)
    (hdest : sendsTo p n port c = some dest) : Counted p dest (sentMsg p n port vc c) := by
  obtain ⟨dest', hlink, hdest⟩ := Option.bind_eq_some_iff.1 hdest
  rw [Option.ite_none_left_eq_some] at hdest
  cases hdest.2
  cases dest with
  | terminal => trivial
  | router r => exact fun _ => h r hlink

theorem Counted.arrives {stop : NextStop} {port : ℕ} (h : Counted p (.router n) msg)
    (type : msg.type = .rArrive) (next : getNextStop p n s msg = some stop)
    (hport : stop.Uses port) : Within p n port (hopMsg msg) := by
  intro r hlink
  have hbound := h type
  have hhops : p.hopsLeft r msg.destTerminal + 1 = p.hopsLeft n msg.destTerminal :=
    Hop.hopsLeft ⟨s, msg, stop, port, rfl, next, hport, hlink⟩
  change msg.myNHop + 1 + p.hopsLeft r msg.destTerminal ≤ _
  omega

theorem counted_credit (pos : ℤ) (c : Msg) {x : LpName × Msg}
    (h : flight (routerCreditSend p env pos c) = some x) : Counted p x.1 x.2 := by
  unfold routerCreditSend at h
  refine counted_of_type ?_
  split at h <;> cases h <;> simp

theorem counted_rSend (port : ℕ) (d : LpName) : Counted p d (rSendMsg env port) :=
  counted_of_type (by simp)

theorem Wakes.counted {port : ℕ} {cond : Prop} (h : Wakes env n s s' port cond outs) :
    ∀ x ∈ outs.filterMap flight, Counted p x.1 x.2 := by
  rcases h with ⟨-, -, rfl⟩ | ⟨-, -, rfl⟩ <;> simp [rSendEvent, counted_rSend]

theorem counted_cons {o : Out} (ho : ∀ x, flight o = some x → Counted p x.1 x.2)
    (houts : ∀ x ∈ outs.filterMap flight, Counted p x.1 x.2) :
    ∀ x ∈ (o :: outs).filterMap flight, Counted p x.1 x.2 := by
  intro x hx
  rw [List.mem_filterMap] at hx
  obtain ⟨o', ho', hx⟩ := hx
  obtain rfl | ho' := List.mem_cons.1 ho'
  · exact ho x hx
  · exact houts x (List.mem_filterMap.2 ⟨o', ho', hx⟩)

/-- **An event of a router.** -/
theorem RouterStep.counted (h : RouterStep p env n s L msg s' L' outs) (hok : s.Ok p L)
    (hs : ChunksWithin p n s L) (hmsg : Counted p (.router n) msg) :
    ChunksWithin p n s' L' ∧ ∀ x ∈ outs.filterMap flight, Counted p x.1 x.2 := by
  cases h with
  | @place outs stop type next _ _ _ unused chunks _ _ loop =>
    refine ⟨hs.update chunks (fun q b hb hne => (mem_update_append hne q).1 hb) fun q hq => ?_,
      counted_cons (fun x => counted_credit _ _) loop.counted⟩
    rw [eq_of_mem_update (hok.not_mem unused) hq]
    exact hmsg.arrives type next (.inl rfl)
  | park stop type next _ _ _ unused _ chunks _ _ _ =>
    refine ⟨hs.update chunks (fun q b hb hne => (mem_update_append hne q).1 hb) fun q hq => ?_,
      by simp⟩
    rw [eq_of_mem_update (hok.not_mem unused) hq]
    exact hmsg.arrives type next (.inl rfl)
  | @parkTwice outs stop port type next _ _ _ unused _ _ static _ chunks _ _ loop =>
    refine ⟨hs.update chunks (fun q b hb hne => ?_) fun q hq => ?_, loop.counted⟩
    · by_cases hq : q = .alt port
      · subst hq
        rw [update_self, List.mem_append, List.mem_singleton] at hb
        exact hb.resolve_right hne
      · rw [update_of_ne hq, mem_update_append hne] at hb
        exact hb
    · by_cases hqa : q = .alt port
      · subst hqa
        exact hmsg.arrives type next (.inr static)
      · rw [update_of_ne hqa] at hq
        rw [eq_of_mem_update (hok.not_mem unused) hq]
        exact hmsg.arrives type next (.inl rfl)
  | halt type _ _ chunks _ _ _ =>
    exact ⟨hs.mono chunks fun q b hb => hb, by simp⟩
  | send a vc c l dest ts ts' type _ head chunk link chunks _ _ _ =>
    have hwithin : Within p n msg.vcIndex c.msg :=
      hs (.pending msg.vcIndex vc) a (head ▸ List.mem_cons_self) c chunk
    refine ⟨hs.mono chunks fun q b hb => List.mem_of_mem_erase hb, ?_⟩
    simp [rSendEvent, counted_rSend, hwithin.sent link]
  | escape a c l dest ts ts' type _ _ head chunk _ link chunks _ _ _ =>
    have hwithin : Within p n msg.vcIndex c.msg :=
      hs (.alt msg.vcIndex) a (head ▸ List.mem_cons_self) c chunk
    refine ⟨hs.update chunks (fun q b hb _ => List.mem_of_mem_erase hb) fun q hq =>
      absurd hq (hok.lists.not_mem_takeOut a q), counted_cons (fun x => counted_credit _ _) ?_⟩
    simp [rSendEvent, counted_rSend, hwithin.sent link]
  | release type _ chunks _ _ loop =>
    exact ⟨hs.mono chunks fun q b hb => hb, loop.counted⟩
  | @pass outs a c l type _ head chunk _ chunks _ _ loop =>
    have hwithin : Within p n msg.vcIndex c.msg :=
      hs (.queued msg.vcIndex msg.outputChan) a (head ▸ List.mem_cons_self) c chunk
    refine ⟨hs.update chunks (fun q b hb hne => ?_) fun q hq => ?_,
      counted_cons (fun x => counted_credit _ _) loop.counted⟩
    · by_cases hq : q = .pending msg.vcIndex msg.outputChan
      · subst hq
        rw [update_self, List.mem_append, List.mem_singleton] at hb
        exact hb.resolve_right hne
      · rw [update_of_ne hq] at hb
        exact List.mem_of_mem_erase hb
    · rw [eq_of_mem_update (hok.lists.not_mem_takeOut a) hq]
      exact hwithin

end

/-! ### Runs -/

/-- **Every event.** -/
theorem handle_counted {i : LpName} {s s' : LpState i} {outs : List (LpName × Msg)}
    (hs : LpCounted p i s) (hmsg : Counted p i msg) (h : handle p env i s msg = some (s', outs)) :
    LpCounted p i s' ∧ ∀ x ∈ outs, Counted p x.1 x.2 := by
  cases i with
  | terminal n =>
    obtain ⟨r, hr, hx⟩ := Option.map_eq_some_iff.1 h
    obtain ⟨rfl, rfl⟩ := Prod.mk.inj hx
    have hcounted := terminalEvent_counted hs hr
    exact ⟨hcounted.chunks, hcounted.sends⟩
  | router n =>
    obtain ⟨r, hr, hx⟩ := Option.map_eq_some_iff.1 h
    obtain ⟨rfl, rfl⟩ := Prod.mk.inj hx
    obtain ⟨L, hok, hwithin⟩ : ∃ L, Router.Ok p s L ∧ ChunksWithin p n s L := hs
    obtain ⟨L', hstep, hok'⟩ := routerEvent_step hok hr
    obtain ⟨hwithin', houts⟩ := hstep.counted hok hwithin hmsg
    exact ⟨⟨L', hok', hwithin'⟩, houts⟩

/-- **One step.** -/
theorem All.counted_step {net net' : Net LpState Msg} {l : NetLabel LpName Msg Env}
    (hall : All (LpCounted p) (Counted p) net) (hl : FromOutside l)
    (h : (system p).machine.step net l = some net') : All (LpCounted p) (Counted p) net' := by
  obtain ⟨env, d, msg, s', outs, rest, hh, hcases⟩ := LpSystem.step_cases h
  have hmsg : Counted p d msg := by
    obtain ⟨rfl, -⟩ | ⟨-, hperm⟩ := hcases
    · cases d with
      | terminal => trivial
      | router => exact hl.elim
    · exact hall.2 (d, msg) (hperm.mem_iff.2 List.mem_cons_self)
  have hrest : ∀ x ∈ rest, x ∈ net.inFlight := by
    obtain ⟨-, rfl⟩ | ⟨-, hperm⟩ := hcases
    · exact fun x hx => hx
    · exact fun x hx => hperm.mem_iff.2 (List.mem_cons_of_mem _ hx)
  obtain ⟨hs', houts⟩ := handle_counted (hall.1 d) hmsg hh.handle
  exact hall.step hh hrest hs' houts

theorem all_counted_init (p : Param) : All (LpCounted p) (Counted p) init := by
  refine ⟨fun i => ?_, fun x hx => nomatch hx⟩
  cases i with
  | terminal n => exact fun vc c hc => nomatch hc
  | router n => exact ⟨_, Router.ok_init p, fun q a ha => nomatch ha⟩

/-- **The chunks on their way to routers** have counted no more hops than leave those to go. -/
theorem inFlight_counted {ls : List (NetLabel LpName Msg Env)} {net : Net LpState Msg}
    (hls : ∀ l ∈ ls, FromOutside l) (h : (system p).machine.run init ls = some net) :
    All (LpCounted p) (Counted p) net :=
  Machine.run_invariant (fun _ _ _ hall hl hstep => All.counted_step hall hl hstep)
    (all_counted_init p) hls h

/-- The numbers that `local_read_config` and `router_packet_receive` compute from the parameters are
`int`s: those of the terminals and of the ports of a router, and the bound on the hops. -/
structure Ints (p : Param) : Prop where
  terminals : p.totalTerminals < 2 ^ 31
  ports : p.offsetPerDim p.nDims < 2 ^ 31
  hops : p.nDims * p.gap + 2 < 2 ^ 31

theorem Ints.hopsBelow (h : Ints p) {hops : ℕ} (hle : hops ≤ p.nDims * p.gap) :
    HopsBelow p hops := by
  have hint := h.hops
  have hbound : Int.bmod (p.nDims * p.gap + 2 : ℤ) (2 ^ 32) = p.nDims * p.gap + 2 :=
    Int.bmod_eq_of_le (by omega) (by omega)
  have hcount : Int.bmod (hops + 1 : ℤ) (2 ^ 16) ≤ hops + 1 := by
    rw [Int.bmod_def]
    split_ifs <;> omega
  rw [HopsBelow, hbound]
  omega

/-- **Routing converges.**  The links of a dimension fit into its ports; every port chosen, also
that for the alternate queue, is connected and leads to a router closer to the destination in one
dimension and not behind it, or at the destination to a terminal; a route has at most `nDims * gap`
hops and, unless it has arrived, goes on; and in every run the assertion about the hops of a chunk
that arrives at a router holds. -/
theorem routing_converges (p : Param) (hints : Ints p) :
    (∀ r, ∀ i < p.nDims,
      (p.neighbours i ((p.dimPosition r).getD i 0)).length ≤ p.consPerDim i) ∧
    (∀ r s msg stop port, getNextStop p r s msg = some stop → stop.Uses port →
      (∃ i r', p.LeadsOn r msg.destTerminal port i r') ∨
        p.dimPosition r = p.dimPosition (msg.destTerminal / p.numCn) ∧
          p.linkConnections r port =
            some (.terminal (r * p.numCn + msg.destTerminal % p.numCn))) ∧
    (∀ r < p.totalRouters, ∀ dest < p.totalTerminals, ∀ rs, Route p dest r rs →
      rs.length ≤ p.nDims * p.gap ∧
      (rs.getLastD r ≠ dest / p.numCn → ∀ s msg, msg.destTerminal = dest → srcDimOf p msg ≠ none →
        ∃ stop, getNextStop p (rs.getLastD r) s msg = some stop ∧ ∀ port, stop.Uses port →
          ∃ r', p.linkConnections (rs.getLastD r) port = some (.router r') ∧
            Route p dest r (rs ++ [r']))) ∧
    ∀ ls net, (∀ l ∈ ls, FromOutside l) → (system p).machine.run init ls = some net →
      ∀ r msg, (.router r, msg) ∈ net.inFlight → msg.type = .rArrive →
        HopsBelow p msg.myNHop := by
  refine ⟨fun r i hi => Param.length_neighbours_le (p.dimPosition_lt r hi),
    fun r s msg stop port next hport => leadsOn_of_uses next hport,
    fun r hr dest hdest rs hroute => ⟨hroute.length_le, ?_⟩, ?_⟩
  · rintro hne s msg rfl hsrc
    obtain ⟨stop, next, hports⟩ := exists_hop (s := s) hsrc (hroute.getLastD_lt hr) hdest hne
    refine ⟨stop, next, fun port hport => ?_⟩
    obtain ⟨r', hlink, hhop⟩ := hports port hport
    exact ⟨r', hlink, hroute.snoc hhop⟩
  · intro ls net hls hrun r msg hmem htype
    have hbound : msg.myNHop + p.hopsLeft r msg.destTerminal ≤ p.nDims * p.gap :=
      (inFlight_counted hls hrun).2 (.router r, msg) hmem htype
    exact hints.hopsBelow (Nat.le_of_add_right_le hbound)

/-- Eight routers in a line with links to every third one, a terminal each. -/
def eightInLine : Param where
  numCn := 1
  numVcs := 2
  vcSize := 64
  cnVcSize := 64
  chunkSize := 32
  routing := .adaptive
  dimLength := [8]
  gap := 3
  cnDelay := 1
  linkDelay := 1
  creditDelay := 1
  routerDelay := 1
  msgSz := 0
  numCn_pos := Nat.one_pos
  chunkSize_pos := by decide
  gap_pos := by decide
  length_pos := by decide
  numVcs_pos := Nat.two_pos
  adaptive_vcs _ := le_rfl

/-- A chunk for terminal 5 that comes from a terminal. -/
def chunkToFive : Msg := { (default : Msg) with destTerminal := 5, lastHop := .terminal }

/-- From router 0 the chunk goes the long way to router 4. -/
theorem routing_converges_eightInLine :
    (∃ stop, getNextStop eightInLine 0 Router.init chunkToFive = some stop ∧ stop.port = 2) ∧
      ((∃ i r', eightInLine.LeadsOn 0 5 2 i r') ∨
        eightInLine.dimPosition 0 = eightInLine.dimPosition 5 ∧
          eightInLine.linkConnections 0 2 = some (.terminal 0)) := by
  obtain ⟨stop, next, hport⟩ :
      ∃ stop, getNextStop eightInLine 0 Router.init chunkToFive = some stop ∧ stop.port = 2 :=
    ⟨_, rfl, rfl⟩
  exact ⟨⟨stop, next, hport⟩,
    (routing_converges eightInLine ⟨by decide, by decide, by decide⟩).2.1 0 Router.init chunkToFive
      stop 2 next (.inl hport.symm)⟩

/-- Four routers in a square, with a gap that is larger than the mesh. -/
def wideGap : Param :=
  { eightInLine with
    dimLength := [2, 2]
    gap := 2 ^ 30
    gap_pos := by decide
    length_pos := by decide }

/-- A chunk on its first hop finds a port, but the bound is negative. -/
theorem wideGap_hops_not_below :
    (∃ stop, getNextStop wideGap 0 Router.init { chunkToFive with destTerminal := 3 } = some stop) ∧
      ∀ env, routerPacketReceive wideGap env 0 Router.init
        { chunkToFive with destTerminal := 3 } = none := by
  refine ⟨⟨_, rfl⟩, fun env => ?_⟩
  have hhops : ¬HopsBelow wideGap 0 := by decide
  rw [routerPacketReceive]
  refine Option.bind_eq_none_iff.2 fun stop _ => ?_
  split_ifs with h₁ h₂ h₃
  · rfl
  · rfl
  · exact absurd h₃ hhops
  · exact absurd h₃ hhops
  · rfl

end CodesSim.Mesh
