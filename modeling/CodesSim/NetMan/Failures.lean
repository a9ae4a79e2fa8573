import CodesSim.NetMan.Managers

/-!
# Links and failures

What the network manager holds after links have been added (`Linked`): its lists of connections are
the links, and the maps point to them by their keys.  `fail_connection` lets the first connection
between two ends fail that still works, so after `n` failures the first `n` have failed
(`Front`); of a link to a terminal the injection link of the same rail fails as well (`Back`).
`Failed.failConnection` says this for one failure and `failAll` for a list of them.
-/

namespace CodesSim.NetMan

open Groups

variable {p : NetworkParam} {m m' : NetworkManager p} {conn conn' : Connection}
  {conns conns' l l' : List Connection} {ptrs : List ℕ} {n : ℕ} {links : List Link}
  {failures : List LinkInfo}

/-! ### Links -/

/-- A connection as if it had not failed. -/
def Connection.healthy (conn : Connection) : Connection := { conn with isFailed := false }

/-- The links between routers. -/
def routerLinks (links : List Link) : List Link := links.filter fun l => l.connType ≠ .connTerminal

/-- The links to terminals. -/
def terminalLinks (links : List Link) : List Link := links.filter fun l =>
    l.connType = .connTerminal

/-- The ends of a connection. -/
def Connection.ends (conn : Connection) : ℤ × ℤ := (conn.srcGid, conn.destGid)

/-- The groups that a global connection joins. -/
def Connection.groups (conn : Connection) : Option (ℤ × ℤ) :=
  if conn.connType = .connGlobal then some (conn.srcGroupId, conn.destGroupId) else none

/-- **The network manager has the links**, in the order in which they were added. -/
structure Linked (links : List Link) (m : NetworkManager p) : Prop where
  routers : m.routerConns.map Connection.healthy = (routerLinks links).map
    (routerConn p ·.toLinkInfo)
  terminals : m.terminalConns.map Connection.healthy =
    (terminalLinks links).map (terminalConn p ·.toLinkInfo)
  injections : m.injectionConns.map Connection.healthy =
    (terminalLinks links).map (injectionConn p ·.toLinkInfo)
  ofRouter : Indexes Connection.srcGid m.routerConns m.routerConnectionsMap
  ofRouterTerminals : Indexes Connection.srcGid m.terminalConns m.routerTerminalConnectionsMap
  ofTerminal : Indexes Connection.srcGid m.injectionConns m.terminalRouterConnectionsMap
  routerRouter : Indexes Connection.ends m.routerConns m.routerToRouterConnectionMap
  routerTerminal : Indexes Connection.ends m.terminalConns m.routerToTerminalConnectionMap
  terminalRouter : Indexes Connection.ends m.injectionConns m.terminalToRouterConnectionMap
  groups : By (fun ptr : ℕ => m.routerConns[ptr]?.bind Connection.groups)
    (List.range m.routerConns.length) m.globalGroupConnectionMap

theorem linked_new (enabled : Bool) : Linked [] (.new p enabled) :=
  ⟨rfl, rfl, rfl, Indexes.nil, Indexes.nil, Indexes.nil, Indexes.nil, Indexes.nil,
    Indexes.nil, By.nil⟩

theorem getElem?_append_range {α : Type} {f : Connection → Option α} (conn : Connection) :
    ∀ ptr ∈ List.range conns.length, ((conns ++ [conn])[ptr]?.bind f) = conns[ptr]?.bind f := by
  intro ptr hptr
  rw [List.getElem?_append_left (List.mem_range.1 hptr)]

theorem Linked.addLink (h : Linked links m) (link : Link) :
    Linked (links ++ [link]) (m.addLink link) := by
  by_cases hty : link.connType = .connTerminal
  · have hrouters : routerLinks (links ++ [link]) = routerLinks links := by
      simp [routerLinks, List.filter_append, hty]
    have hterminals : terminalLinks (links ++ [link]) = terminalLinks links ++ [link] := by
      simp [terminalLinks, List.filter_append, hty]
    rw [NetworkManager.addLink, if_neg (not_not.2 hty)]
    refine ⟨?_, ?_, ?_, h.ofRouter, h.ofRouterTerminals.append (terminalConn p link.toLinkInfo),
      h.ofTerminal.append (injectionConn p link.toLinkInfo), h.routerRouter,
      h.routerTerminal.append (terminalConn p link.toLinkInfo),
      h.terminalRouter.append (injectionConn p link.toLinkInfo), h.groups⟩
    · rw [hrouters]
      exact h.routers
    · rw [hterminals, List.map_append, List.map_append, h.terminals]
      rfl
    · rw [hterminals, List.map_append, List.map_append, h.injections]
      rfl
  · have hrouters : routerLinks (links ++ [link]) = routerLinks links ++ [link] := by
      simp [routerLinks, List.filter_append, hty]
    have hterminals : terminalLinks (links ++ [link]) = terminalLinks links := by
      simp [terminalLinks, List.filter_append, hty]
    rw [NetworkManager.addLink, if_pos hty]
    refine ⟨?_, ?_, ?_, h.ofRouter.append (routerConn p link.toLinkInfo), h.ofRouterTerminals,
      h.ofTerminal, h.routerRouter.append (routerConn p link.toLinkInfo), h.routerTerminal,
      h.terminalRouter, ?_⟩
    · rw [hrouters, List.map_append, List.map_append, h.routers]
      rfl
    · rw [hterminals]
      exact h.terminals
    · rw [hterminals]
      exact h.injections
    · have hold := h.groups.congr
        (getElem?_append_range (f := Connection.groups) (routerConn p link.toLinkInfo))
      have hnew : ((m.routerConns ++ [routerConn p link.toLinkInfo])[m.routerConns.length]?.bind
          Connection.groups) = (routerConn p link.toLinkInfo).groups := by
        simp
      simp only [List.length_append, List.length_singleton, List.range_succ]
      by_cases hglobal : (routerConn p link.toLinkInfo).connType = .connGlobal
      · rw [if_pos hglobal]
        refine hold.push (hnew.trans ?_)
        rw [Connection.groups, if_pos hglobal]
      · rw [if_neg hglobal]
        refine hold.skip (hnew.trans ?_)
        rw [Connection.groups, if_neg hglobal]

theorem linked_foldl (h : Linked links m) (new : List Link) :
    Linked (links ++ new) (new.foldl NetworkManager.addLink m) := by
  induction new generalizing links m with
  | nil => rwa [List.append_nil]
  | cons link new ih =>
    have hnext := ih (h.addLink link)
    rwa [List.append_assoc] at hnext

/-! ### The first that works -/

/-- The first `n` connections have failed, and no others. -/
structure Front (n : ℕ) (l : List Connection) : Prop where
  le : n ≤ l.length
  failed : ∀ conn ∈ l.take n, conn.isFailed = true
  working : ∀ conn ∈ l.drop n, conn.isFailed = false

theorem Front.zero (h : ∀ conn ∈ l, conn.isFailed = false) : Front 0 l :=
  ⟨Nat.zero_le _, by simp, by simpa using h⟩

theorem Front.filter_failed (h : Front n l) : l.filter (·.isFailed) = l.take n := by
  conv_lhs => rw [← List.take_append_drop n l]
  rw [List.filter_append, List.filter_eq_self.2 h.failed, List.filter_eq_nil_iff.2, List.append_nil]
  intro conn hconn
  simp [h.working conn hconn]

theorem Front.filter_working (h : Front n l) : l.filter (!·.isFailed) = l.drop n := by
  conv_lhs => rw [← List.take_append_drop n l]
  have hfront : (l.take n).filter (!·.isFailed) = [] :=
    List.filter_eq_nil_iff.2 fun conn hconn => by
    simp [h.failed conn hconn]
  rw [List.filter_append, hfront, List.nil_append, List.filter_eq_self.2]
  intro conn hconn
  simp [h.working conn hconn]

theorem Front.countP (h : Front n l) : l.countP (·.isFailed) = n := by
  rw [List.countP_eq_length_filter, h.filter_failed, List.length_take]
  exact Nat.min_eq_left h.le

variable {xs ys : List Connection}

theorem Front.fail (h : Front n (xs ++ conn :: ys))
    (hxs : ∀ conn ∈ xs, conn.isFailed = true) (hconn : conn.isFailed = false) :
    n = xs.length ∧ Front (n + 1) (xs ++ conn.fail :: ys) := by
  have hn : n = xs.length := by
    obtain hlt | heq | hlt := Nat.lt_trichotomy n xs.length
    · have hmem : xs[n] ∈ (xs ++ conn :: ys).drop n := by
        rw [List.drop_append_of_le_length (Nat.le_of_lt hlt), List.drop_eq_getElem_cons hlt]
        exact List.mem_append_left _ List.mem_cons_self
      have h1 := h.working _ hmem
      rw [hxs _ (List.getElem_mem hlt)] at h1
      cases h1
    · exact heq
    · have hmem : conn ∈ (xs ++ conn :: ys).take n := by
        rw [List.take_append, List.take_of_length_le (Nat.le_of_lt hlt)]
        obtain ⟨k, hk⟩ : ∃ k, n - xs.length = k + 1 := ⟨n - xs.length - 1, by omega⟩
        rw [hk, List.take_succ_cons]
        exact List.mem_append_right _ List.mem_cons_self
      have h1 := h.failed _ hmem
      rw [hconn] at h1
      cases h1
  subst hn
  refine ⟨rfl, ?_, ?_, ?_⟩
  · simp
  · intro conn₀ h₀
    have htake : (xs ++ conn.fail :: ys).take (xs.length + 1) = xs ++ [conn.fail] := by
      rw [List.take_length_add_append]
      rfl
    rw [htake] at h₀
    obtain h₀ | h₀ := List.mem_append.1 h₀
    · exact hxs conn₀ h₀
    · rw [List.mem_singleton.1 h₀]
      rfl
  · intro conn₀ h₀
    have hdrop : (xs ++ conn.fail :: ys).drop (xs.length + 1) = ys := by
      rw [List.drop_length_add_append]
      rfl
    rw [hdrop] at h₀
    refine h.working conn₀ ?_
    rw [List.drop_left]
    exact List.mem_cons_of_mem _ h₀

variable {P : Connection → Bool}

variable {ptr : ℕ}

theorem firstPtr_eq_some (hnodup : ptrs.Nodup)
    (h : firstPtr conns P ptrs = some ptr) : ∃ xs conn ys, conns[ptr]? = some conn ∧
      deref conns ptrs = xs ++ conn :: ys ∧ (∀ conn ∈ xs, P conn = false) ∧ P conn = true ∧
      deref (setFailed conns ptr) ptrs = xs ++ conn.fail :: ys := by
  obtain ⟨hptr, as, bs, rfl, has⟩ := List.find?_eq_some_iff_append.1 h
  obtain ⟨hnot, -⟩ : ptr ∉ as ++ bs ∧ _ := List.nodup_cons.1 (List.perm_middle.nodup_iff.1 hnodup)
  cases hconn : conns[ptr]? with
  | none => simp [hconn] at hptr
  | some conn =>
    have hP : P conn = true := by simpa [hconn] using hptr
    have hsplit : ∀ conns' : List Connection, deref conns' (as ++ ptr :: bs) =
        deref conns' as ++ (conns'[ptr]?.toList ++ deref conns' bs) := by
      intro conns'
      rw [← deref_cons, deref, List.filterMap_append]
      rfl
    refine ⟨deref conns as, conn, deref conns bs, rfl, ?_, ?_, hP, ?_⟩
    · rw [hsplit, hconn]
      rfl
    · intro conn₀ h₀
      obtain ⟨i, hi, heq⟩ := List.mem_filterMap.1 h₀
      have hfalse := has i hi
      rw [heq] at hfalse
      simpa using hfalse
    · rw [hsplit, setFailed, deref_modify_of_notMem fun hmem => hnot (List.mem_append_left _ hmem),
        deref_modify_of_notMem fun hmem => hnot (List.mem_append_right _ hmem),
        List.getElem?_modify, hconn]
      simp

theorem firstPtr_eq_none (h : firstPtr conns P ptrs = none) :
    ∀ conn ∈ deref conns ptrs, P conn = false := by
  intro conn hconn
  obtain ⟨i, hi, heq⟩ := List.mem_filterMap.1 hconn
  have hfalse := List.find?_eq_none.1 h i hi
  rw [heq] at hfalse
  simpa using hfalse

theorem healthy_setFailed (conns : List Connection) (ptr : ℕ) :
    (setFailed conns ptr).map Connection.healthy = conns.map Connection.healthy := by
  refine List.ext_getElem? fun i => ?_
  rw [setFailed, List.getElem?_map, List.getElem?_map, List.getElem?_modify]
  cases conns[i]? with
  | none => rfl
  | some conn => by_cases hi : ptr = i <;> simp [hi, Connection.healthy, Connection.fail]

theorem map_deref_congr {α : Type} {f : Connection → α} (hf : ∀ conn, f conn.healthy = f conn)
    (h : conns'.map Connection.healthy = conns.map Connection.healthy) (ptrs : List ℕ) :
    (deref conns' ptrs).map f = (deref conns ptrs).map f := by
  have hcomp : f ∘ Connection.healthy = f := funext hf
  have hget : ∀ ptr : ℕ, conns'[ptr]?.map f = conns[ptr]?.map f := by
    intro ptr
    have hmap := congrArg (fun l : List Connection => l[ptr]?.map f) h
    simpa only [List.getElem?_map, Option.map_map, hcomp] using hmap
  rw [deref, deref, List.map_filterMap, List.map_filterMap]
  exact List.filterMap_congr fun (ptr : ℕ) _ => hget ptr

/-! ### The injection links -/

/-- Of the injection links, a failed one is the first of its rail, and those rails have failed that
are among the first `n` rails of the links to the terminal. -/
structure Back (rails : List ℤ) (n : ℕ) (l : List Connection) : Prop where
  sameRails : l.map Connection.railOrPlanarId = rails
  first : l.Pairwise fun a b => b.isFailed = true → a.railOrPlanarId ≠ b.railOrPlanarId
  mem : ∀ rail, (∃ conn ∈ l, conn.isFailed = true ∧ conn.railOrPlanarId = rail) ↔
    rail ∈ rails.take n

theorem Back.zero (h : ∀ conn ∈ l, conn.isFailed = false) :
    Back (l.map Connection.railOrPlanarId) 0 l where
  sameRails := rfl
  first := List.Pairwise.imp_of_mem (fun {a b} _ hb _ hfail => by
    rw [h b hb] at hfail
    cases hfail) (List.pairwise_of_forall (R := fun _ _ => True) fun _ _ => trivial)
  mem rail := by
    rw [List.take_zero]
    refine iff_of_false ?_ List.not_mem_nil
    rintro ⟨conn, hconn, hfail, -⟩
    rw [h conn hconn] at hfail
    cases hfail

theorem Back.countP {rails : List ℤ} (h : Back rails n l) (rail : ℤ) :
    l.countP (fun conn => conn.isFailed && conn.railOrPlanarId = rail) =
      if rail ∈ rails.take n then 1 else 0 := by
  have hmem := h.mem rail
  have hle : (l.filter fun conn => conn.isFailed && conn.railOrPlanarId = rail).length ≤ 1 := by
    have hpair := List.Pairwise.filter (fun conn => conn.isFailed && conn.railOrPlanarId = rail)
      h.first
    cases hl : l.filter fun conn => conn.isFailed && conn.railOrPlanarId = rail with
    | nil => exact Nat.zero_le _
    | cons a as =>
      cases as with
      | nil => exact Nat.le_refl _
      | cons b as =>
        rw [hl] at hpair
        have hall : ∀ conn ∈ a :: b :: as, conn.isFailed = true ∧ conn.railOrPlanarId = rail := by
          intro conn hconn
          rw [← hl] at hconn
          simpa using (List.mem_filter.1 hconn).2
        have ha := hall a List.mem_cons_self
        have hb := hall b (List.mem_cons_of_mem _ List.mem_cons_self)
        exact absurd (ha.2.trans hb.2.symm)
          ((List.pairwise_cons.1 hpair).1 b List.mem_cons_self hb.1)
  rw [List.countP_eq_length_filter]
  split_ifs with hrail
  · obtain ⟨conn, hconn, hfail, hr⟩ := hmem.2 hrail
    have hin : conn ∈ l.filter fun conn => conn.isFailed && conn.railOrPlanarId = rail :=
      List.mem_filter.2 ⟨hconn, by simp [hfail, hr]⟩
    have hpos := List.length_pos_of_mem hin
    omega
  · refine List.length_eq_zero_iff.2 (List.filter_eq_nil_iff.2 fun conn hconn hP => hrail ?_)
    exact hmem.1 ⟨conn, hconn, by simpa using hP⟩

theorem Back.fail {rails : List ℤ} {rail : ℤ}
    (h : Back rails n (xs ++ conn :: ys)) (hxs : ∀ conn ∈ xs, conn.railOrPlanarId ≠ rail)
    (hconn : conn.railOrPlanarId = rail) (hrail : rails[n]? = some rail) :
    Back rails (n + 1) (xs ++ conn.fail :: ys) := by
  have hmem : ∀ r, r ∈ rails.take (n + 1) ↔ r ∈ rails.take n ∨ r = rail := by
    intro r
    rw [List.take_add_one, hrail, List.mem_append]
    simp
  refine ⟨?_, ?_, fun r => ?_⟩
  · rw [← h.sameRails]
    simp [Connection.fail]
  · have hold := h.first
    rw [List.pairwise_append, List.pairwise_cons] at hold ⊢
    obtain ⟨hx, ⟨hc, hy⟩, hxc⟩ := hold
    refine ⟨hx, ⟨hc, hy⟩, fun a ha b hb => ?_⟩
    obtain rfl | hb := List.mem_cons.1 hb
    · intro _ heq
      exact hxs a ha (heq.trans hconn)
    · exact hxc a ha b (List.mem_cons_of_mem _ hb)
  · rw [hmem, ← h.mem]
    constructor
    · rintro ⟨conn₀, h₀, hfail, hr⟩
      obtain h₀ | h₀ := List.mem_append.1 h₀
      · exact .inl ⟨conn₀, List.mem_append_left _ h₀, hfail, hr⟩
      · obtain rfl | h₀ := List.mem_cons.1 h₀
        · exact .inr (hr.symm.trans hconn)
        · exact .inl ⟨conn₀, List.mem_append_right _ (List.mem_cons_of_mem _ h₀), hfail, hr⟩
    · rintro (⟨conn₀, h₀, hfail, hr⟩ | rfl)
      · obtain h₀ | h₀ := List.mem_append.1 h₀
        · exact ⟨conn₀, List.mem_append_left _ h₀, hfail, hr⟩
        · obtain rfl | h₀ := List.mem_cons.1 h₀
          · exact ⟨conn₀.fail, List.mem_append_right _ List.mem_cons_self, rfl, hr⟩
          · exact ⟨conn₀, List.mem_append_right _ (List.mem_cons_of_mem _ h₀), hfail, hr⟩
      · exact ⟨conn.fail, List.mem_append_right _ List.mem_cons_self, rfl, hconn⟩

/-! ### The links of two ends -/

/-- The links from a router to a router. -/
def linksBetween (links : List Link) (i j : ℤ) : List Link :=
  links.filter fun l => l.connType ≠ .connTerminal ∧ l.srcGid = i ∧ l.destGid = j

/-- The links from a router to a terminal. -/
def linksToTerminal (links : List Link) (i t : ℤ) : List Link :=
  links.filter fun l => l.connType = .connTerminal ∧ l.srcGid = i ∧ l.destGid = t

/-- The failures from a router to a router. -/
def failuresBetween (failures : List LinkInfo) (i j : ℤ) : ℕ :=
  failures.countP fun l => l.connType ≠ .connTerminal ∧ l.srcGid = i ∧ l.destGid = j

/-- The failures from a router to a terminal. -/
def failuresToTerminal (failures : List LinkInfo) (i t : ℤ) : ℕ :=
  failures.countP fun l => l.connType = .connTerminal ∧ l.srcGid = i ∧ l.destGid = t

theorem filter_healthy (hP : ∀ conn, P conn.healthy = P conn) {L : List Link}
    {f : Link → Connection} (h : conns.map Connection.healthy = L.map f) :
    (conns.filter P).map Connection.healthy = (L.filter (P ∘ f)).map f := by
  have hcomp : P ∘ Connection.healthy = P := funext hP
  have hleft : (conns.map Connection.healthy).filter P = (conns.filter P).map
    Connection.healthy := by
    rw [List.filter_map, hcomp]
  rw [← hleft, h, List.filter_map]

theorem Linked.between (h : Linked links m) (i j : ℤ) :
    (deref m.routerConns (m.routerToRouterConnectionMap (i, j))).map Connection.healthy =
      (linksBetween links i j).map (routerConn p ·.toLinkInfo) := by
  rw [deref, h.routerRouter.deref, filter_healthy (fun _ => rfl) h.routers, routerLinks,
    linksBetween, List.filter_filter]
  congr 1
  refine List.filter_congr fun l _ => ?_
  simp only [Function.comp, Connection.ends, routerConn, Prod.mk.injEq, ← Bool.decide_and]
  exact decide_eq_decide.2 and_comm

theorem Linked.toTerminal (h : Linked links m) (i t : ℤ) :
    (deref m.terminalConns (m.routerToTerminalConnectionMap (i, t))).map Connection.healthy =
      (linksToTerminal links i t).map (terminalConn p ·.toLinkInfo) := by
  rw [deref, h.routerTerminal.deref, filter_healthy (fun _ => rfl) h.terminals, terminalLinks,
    linksToTerminal, List.filter_filter]
  congr 1
  refine List.filter_congr fun l _ => ?_
  simp only [Function.comp, Connection.ends, terminalConn, routerConn, Prod.mk.injEq,
    ← Bool.decide_and]
  exact decide_eq_decide.2 and_comm

theorem Linked.back (h : Linked links m) (i t : ℤ) :
    (deref m.injectionConns (m.terminalToRouterConnectionMap (t, i))).map Connection.healthy =
      (linksToTerminal links i t).map (injectionConn p ·.toLinkInfo) := by
  rw [deref, h.terminalRouter.deref, filter_healthy (fun _ => rfl) h.injections, terminalLinks,
    linksToTerminal, List.filter_filter]
  congr 1
  refine List.filter_congr fun l _ => ?_
  simp only [Function.comp, Connection.ends, injectionConn, Prod.mk.injEq, ← Bool.decide_and]
  refine decide_eq_decide.2 ?_
  tauto

theorem Linked.rails (h : Linked links m) (i t : ℤ) :
    (deref m.injectionConns (m.terminalToRouterConnectionMap (t, i))).map
    Connection.railOrPlanarId =
      (deref m.terminalConns (m.routerToTerminalConnectionMap (i, t))).map
        Connection.railOrPlanarId := by
  have hback := congrArg (List.map Connection.railOrPlanarId) (h.back i t)
  have hto := congrArg (List.map Connection.railOrPlanarId) (h.toTerminal i t)
  rw [List.map_map, List.map_map] at hback hto
  exact hback.trans hto.symm

/-! ### Failures -/

theorem Linked.setRouterConns (h : Linked links m)
    (hconns : conns.map Connection.healthy = m.routerConns.map Connection.healthy) :
    Linked links (m.setRouterConns conns) := by
  have hkeys : ∀ {α : Type} (f : Connection → α), (∀ conn, f conn.healthy = f conn) →
      conns.map f = m.routerConns.map f := by
    intro α f hf
    have hcomp : f ∘ Connection.healthy = f := funext hf
    have hmap := congrArg (List.map f) hconns
    rwa [List.map_map, List.map_map, hcomp] at hmap
  have hlen : conns.length = m.routerConns.length := by
    simpa using congrArg List.length hconns
  refine ⟨hconns.trans h.routers, h.terminals, h.injections,
    h.ofRouter.congr (hkeys _ fun _ => rfl),
    h.ofRouterTerminals, h.ofTerminal, h.routerRouter.congr (hkeys _ fun _ => rfl),
    h.routerTerminal, h.terminalRouter, ?_⟩
  have hget : ∀ ptr : ℕ, conns[ptr]?.bind Connection.groups = m.routerConns[ptr]?.bind
    Connection.groups := by
    intro ptr
    have hmap := congrArg (fun l : List (Option (ℤ × ℤ)) => l[ptr]?.bind id)
      (hkeys Connection.groups fun _ => rfl)
    simpa only [List.getElem?_map, Option.bind_map, Function.id_comp] using hmap
  change By _ (List.range conns.length) m.globalGroupConnectionMap
  rw [hlen]
  exact h.groups.congr fun ptr _ => hget ptr

theorem Linked.setTerminalConns (h : Linked links m)
    (hconns : conns.map Connection.healthy = m.terminalConns.map Connection.healthy)
    (hconns' : conns'.map Connection.healthy = m.injectionConns.map Connection.healthy) :
    Linked links (m.setTerminalConns conns conns') := by
  have hkeys : ∀ {α : Type} {conns conns' : List Connection}
      (_ : conns.map Connection.healthy = conns'.map Connection.healthy) (f : Connection → α),
      (∀ conn, f conn.healthy = f conn) → conns.map f = conns'.map f := by
    intro α conns conns' hconns f hf
    have hcomp : f ∘ Connection.healthy = f := funext hf
    have hmap := congrArg (List.map f) hconns
    rwa [List.map_map, List.map_map, hcomp] at hmap
  exact ⟨h.routers, hconns.trans h.terminals, hconns'.trans h.injections, h.ofRouter,
    h.ofRouterTerminals.congr (hkeys hconns _ fun _ => rfl),
    h.ofTerminal.congr (hkeys hconns' _ fun _ => rfl), h.routerRouter,
    h.routerTerminal.congr (hkeys hconns _ fun _ => rfl),
    h.terminalRouter.congr (hkeys hconns' _ fun _ => rfl), h.groups⟩

/-- **The failures have been applied**: between two ends the first connections have failed, as many
as there are failures. -/
structure Failed (failures : List LinkInfo) (m : NetworkManager p) : Prop where
  routers : ∀ i j, Front (failuresBetween failures i j)
    (deref m.routerConns (m.routerToRouterConnectionMap (i, j)))
  terminals : ∀ i t, Front (failuresToTerminal failures i t)
    (deref m.terminalConns (m.routerToTerminalConnectionMap (i, t)))
  back : ∀ i t, Back ((deref m.terminalConns (m.routerToTerminalConnectionMap (i, t))).map
      Connection.railOrPlanarId) (failuresToTerminal failures i t)
    (deref m.injectionConns (m.terminalToRouterConnectionMap (t, i)))

variable {index : ℤ × ℤ → List ℕ}

theorem deref_setFailed_of_ne (h : Indexes Connection.ends conns index)
    {k k' : ℤ × ℤ} (hk : k' ≠ k) (hptr : ptr ∈ index k) :
    deref (setFailed conns ptr) (index k') = deref conns (index k') := by
  refine deref_modify_of_notMem fun hmem => hk ?_
  obtain ⟨conn, hconn, hends⟩ := h.mem.1 hptr
  obtain ⟨conn', hconn', hends'⟩ := h.mem.1 hmem
  cases hconn.symm.trans hconn'
  exact hends'.symm.trans hends

theorem firstPtr_mem (h : firstPtr conns P ptrs = some ptr) :
    ptr ∈ ptrs := List.mem_of_find?_eq_some h

theorem Front.setFailed (h : Indexes Connection.ends conns index)
    {count : ℤ → ℤ → ℕ} (hfront : ∀ i j, Front (count i j) (deref conns (index (i, j))))
    (count' : ℤ → ℤ → ℕ) (i j : ℤ)
    (hcount : ∀ i' j', count' i' j' = count i' j' + if i = i' ∧ j = j' then 1 else 0)
    (hnot : getFailedCountFromVector
      (deref conns (index (i, j))) ≠ (deref conns (index (i, j))).length) :
    ∃ ptr conn xs ys, firstPtr conns (fun conn => !conn.isFailed) (index (i, j)) = some ptr ∧
      conns[ptr]? = some conn ∧ deref conns (index (i, j)) = xs ++ conn :: ys ∧
      xs.length = count i j ∧
      ∀ i' j', Front (count' i' j') (deref (NetMan.setFailed conns ptr) (index (i', j'))) := by
  cases hfirst : firstPtr conns (fun conn => !conn.isFailed) (index (i, j)) with
  | none =>
    refine absurd ?_ hnot
    rw [getFailedCountFromVector, List.countP_eq_length]
    intro conn hconn
    simpa using firstPtr_eq_none hfirst conn hconn
  | some ptr =>
    obtain ⟨xs, conn, ys, hconn, hsplit, hxs, hworking, hnew⟩ := firstPtr_eq_some (h.nodup _) hfirst
    have hij := hfront i j
    rw [hsplit] at hij
    obtain ⟨hlen, hfail⟩ := hij.fail (fun conn hmem => by simpa using hxs conn hmem)
      (by simpa using hworking)
    refine ⟨ptr, conn, xs, ys, rfl, hconn, hsplit, hlen.symm, fun i' j' => ?_⟩
    rw [hcount]
    by_cases hends : i = i' ∧ j = j'
    · obtain ⟨rfl, rfl⟩ := hends
      rw [if_pos ⟨rfl, rfl⟩, hnew]
      exact hfail
    · rw [if_neg hends, Nat.add_zero, deref_setFailed_of_ne h (fun he => hends ?_)
        (firstPtr_mem hfirst)]
      · exact hfront i' j'
      · cases he
        exact ⟨rfl, rfl⟩

theorem Back.setFailed {index' : ℤ × ℤ → List ℕ} (h : Indexes Connection.ends conns' index')
    {count count' : ℤ → ℤ → ℕ}
    (hback : ∀ i t, Back ((deref conns (index (i, t))).map Connection.railOrPlanarId) (count i t)
      (deref conns' (index' (t, i))))
    {i t : ℤ} (hcount : ∀ i' t', count' i' t' = count i' t' + if i = i' ∧ t = t' then 1 else 0)
    (hsplit : deref conns (index (i, t)) = xs ++ conn :: ys)
    (hlen : xs.length = count i t) (i' t' : ℤ) :
    Back ((deref conns (index (i', t'))).map Connection.railOrPlanarId) (count' i' t')
      (deref (setFailed? conns' (firstPtr conns'
        (fun conn' => conn'.railOrPlanarId = conn.railOrPlanarId) (index' (t, i))))
        (index' (t', i'))) := by
  have hrail : ((deref conns (index (i, t))).map Connection.railOrPlanarId)[count i t]? =
      some conn.railOrPlanarId := by
    rw [hsplit, ← hlen, List.getElem?_map]
    simp
  cases hfirst : firstPtr conns' (fun conn' => conn'.railOrPlanarId = conn.railOrPlanarId)
      (index' (t, i)) with
  | none =>
    have hmem : conn.railOrPlanarId ∈
        (deref conns' (index' (t, i))).map Connection.railOrPlanarId := by
      rw [(hback i t).sameRails]
      exact List.mem_of_getElem? hrail
    obtain ⟨conn', hconn', heq⟩ := List.mem_map.1 hmem
    have hfalse := firstPtr_eq_none hfirst conn' hconn'
    simp [heq] at hfalse
  | some ptr =>
    obtain ⟨xs', conn', ys', hconn', hsplit', hxs', hP, hnew⟩ := firstPtr_eq_some (h.nodup _) hfirst
    rw [hcount]
    by_cases hends : i = i' ∧ t = t'
    · obtain ⟨rfl, rfl⟩ := hends
      have hold := hback i t
      rw [hsplit'] at hold
      rw [if_pos ⟨rfl, rfl⟩, setFailed?, hnew]
      exact hold.fail (fun conn₀ h₀ => by simpa using hxs' conn₀ h₀) (by simpa using hP) hrail
    · rw [if_neg hends, Nat.add_zero, setFailed?,
        deref_setFailed_of_ne h (fun he => hends ?_) (firstPtr_mem hfirst)]
      · exact hback i' t'
      · cases he
        exact ⟨rfl, rfl⟩

theorem failuresBetween_append (failures : List LinkInfo) (f : LinkInfo) (i j : ℤ) :
    failuresBetween (failures ++ [f]) i j = failuresBetween failures i j +
      if f.connType ≠ .connTerminal ∧ f.srcGid = i ∧ f.destGid = j then 1 else 0 := by
  rw [failuresBetween, List.countP_append, List.countP_singleton]
  simp only [decide_eq_true_eq]
  rfl

theorem failuresToTerminal_append (failures : List LinkInfo) (f : LinkInfo) (i t : ℤ) :
    failuresToTerminal (failures ++ [f]) i t = failuresToTerminal failures i t +
      if f.connType = .connTerminal ∧ f.srcGid = i ∧ f.destGid = t then 1 else 0 := by
  rw [failuresToTerminal, List.countP_append, List.countP_singleton]
  simp only [decide_eq_true_eq]
  rfl

/-- **One failure.** -/
theorem Failed.failConnection (hlinked : Linked links m) (h : Failed failures m) {f : LinkInfo}
    (hfail : m.failConnection f = some m') : Linked links m' ∧ Failed (failures ++ [f]) m' := by
  simp only [NetworkManager.failConnection] at hfail
  split_ifs at hfail with henabled hty hnot hnot
  · cases hfail
    obtain ⟨ptr, conn, xs, ys, hfirst, -, -, -, hfront⟩ :=
    Front.setFailed hlinked.routerRouter h.routers
      (failuresBetween (failures ++ [f])) f.srcGid f.destGid (fun i j => by
        rw [failuresBetween_append]
        simp only [hty, ne_eq, not_false_eq_true, true_and]) hnot
    rw [hfirst]
    refine ⟨hlinked.setRouterConns (healthy_setFailed _ _), hfront, fun i t => ?_, fun i t => ?_⟩
    · rw [failuresToTerminal_append, if_neg fun hf => hty hf.1]
      exact h.terminals i t
    · rw [failuresToTerminal_append, if_neg fun hf => hty hf.1]
      exact h.back i t
  · cases hfail
    have hty' : f.connType = .connTerminal := not_not.1 hty
    have hcount : ∀ i t, failuresToTerminal (failures ++ [f]) i t = failuresToTerminal
      failures i t +
        if f.srcGid = i ∧ f.destGid = t then 1 else 0 := by
      intro i t
      rw [failuresToTerminal_append]
      simp only [hty', true_and]
    obtain ⟨ptr, conn, xs, ys, hfirst, hconn, hsplit, hlen, hfront⟩ :=
      Front.setFailed hlinked.routerTerminal h.terminals _ _ _ hcount hnot
    have hrail : (((some ptr).bind (m.terminalConns[·]?)).map Connection.railOrPlanarId).getD 0 =
        conn.railOrPlanarId := by
      simp [hconn]
    rw [hfirst, hrail]
    refine ⟨hlinked.setTerminalConns (healthy_setFailed _ _) ?_, fun i j => ?_, hfront,
      fun i t => ?_⟩
    · cases firstPtr m.injectionConns (fun conn' => conn'.railOrPlanarId = conn.railOrPlanarId)
        (m.terminalToRouterConnectionMap (f.destGid, f.srcGid)) with
      | none => rfl
      | some ptr' => exact healthy_setFailed _ _
    · rw [failuresBetween_append, if_neg fun hf => hf.1 hty']
      exact h.routers i j
    · have hback := Back.setFailed hlinked.terminalRouter h.back hcount hsplit hlen i t
      have hrails : (deref (setFailed m.terminalConns ptr)
          (m.routerToTerminalConnectionMap (i, t))).map Connection.railOrPlanarId =
          (deref m.terminalConns (m.routerToTerminalConnectionMap (i, t))).map
            Connection.railOrPlanarId :=
        map_deref_congr (fun _ => rfl) (healthy_setFailed _ _) _
      exact hrails ▸ hback

variable {fs : List LinkInfo}

/-- **All failures.** -/
theorem Failed.failAll (hlinked : Linked links m) (h : Failed failures m)
    (hfail : fs.foldlM NetworkManager.failConnection m = some m') :
    Linked links m' ∧ Failed (failures ++ fs) m' := by
  induction fs generalizing m failures with
  | nil =>
    cases hfail
    rw [List.append_nil]
    exact ⟨hlinked, h⟩
  | cons f fs ih =>
    rw [List.foldlM_cons] at hfail
    obtain ⟨m₁, h₁, hrest⟩ := Option.bind_eq_some_iff.1 hfail
    obtain ⟨hlinked₁, hfailed₁⟩ := h.failConnection hlinked h₁
    have hrec := ih hlinked₁ hfailed₁ hrest
    rwa [List.append_assoc] at hrec

theorem Failed.perm (h : Failed failures m) {failures' : List LinkInfo}
    (hperm : failures.Perm failures') : Failed failures' m where
  routers i j := by
    rw [failuresBetween, ← hperm.countP_eq]
    exact h.routers i j
  terminals i t := by
    rw [failuresToTerminal, ← hperm.countP_eq]
    exact h.terminals i t
  back i t := by
    rw [failuresToTerminal, ← hperm.countP_eq]
    exact h.back i t

/-- No connection has failed. -/
structure Fresh (m : NetworkManager p) : Prop where
  routers : ∀ conn ∈ m.routerConns, conn.isFailed = false
  terminals : ∀ conn ∈ m.terminalConns, conn.isFailed = false
  injections : ∀ conn ∈ m.injectionConns, conn.isFailed = false

theorem Fresh.addLink (h : Fresh m) (link : Link) : Fresh (m.addLink link) := by
  have happend : ∀ (conns : List Connection) (conn : Connection),
      (∀ conn ∈ conns, conn.isFailed = false) → conn.isFailed = false →
        ∀ conn₀ ∈ conns ++ [conn], conn₀.isFailed = false := by
    intro conns conn hconns hconn conn₀ h₀
    obtain h₀ | h₀ := List.mem_append.1 h₀
    · exact hconns conn₀ h₀
    · rwa [List.mem_singleton.1 h₀]
  by_cases hty : link.connType = .connTerminal
  · rw [NetworkManager.addLink, if_neg (not_not.2 hty)]
    exact ⟨h.routers, happend _ _ h.terminals rfl, happend _ _ h.injections rfl⟩
  · rw [NetworkManager.addLink, if_pos hty]
    exact ⟨happend _ _ h.routers rfl, h.terminals, h.injections⟩

theorem Fresh.foldl (h : Fresh m) (new : List Link) :
    Fresh (new.foldl NetworkManager.addLink m) := by
  induction new generalizing m with
  | nil => exact h
  | cons link new ih => exact ih (h.addLink link)

theorem Fresh.failed (h : Fresh m) (hlinked : Linked links m) : Failed [] m := by
  have hderef : ∀ {conns : List Connection} (ptrs : List ℕ),
    (∀ conn ∈ conns, conn.isFailed = false) →
      ∀ conn ∈ deref conns ptrs, conn.isFailed = false := by
    intro conns ptrs hall conn hconn
    obtain ⟨i, -, heq⟩ := List.mem_filterMap.1 hconn
    exact hall conn (List.mem_of_getElem? heq)
  refine ⟨fun i j => Front.zero (hderef _ h.routers), fun i t => Front.zero (hderef _ h.terminals),
    fun i t => ?_⟩
  rw [← hlinked.rails]
  exact Back.zero (hderef _ h.injections)

/-! ### The lists of failures -/

/-- The failures that have been noted. -/
def NetworkManager.noted (m : NetworkManager p) : List LinkInfo :=
  elems m.routerLinkFailureLists ++ elems m.routerTerminalLinkFailureLists

theorem addLinkFailureInfo_spec {f : LinkInfo} (h : m.addLinkFailureInfo f = some m')
    (hlinked : Linked links m) (hfresh : Fresh m) :
    Linked links m' ∧ Fresh m' ∧ m'.noted.Perm (f :: m.noted) := by
  rw [NetworkManager.addLinkFailureInfo] at h
  split_ifs at h with henabled hty
  · cases h
    exact ⟨⟨hlinked.routers, hlinked.terminals, hlinked.injections, hlinked.ofRouter,
      hlinked.ofRouterTerminals, hlinked.ofTerminal, hlinked.routerRouter, hlinked.routerTerminal,
      hlinked.terminalRouter, hlinked.groups⟩,
      ⟨hfresh.routers, hfresh.terminals, hfresh.injections⟩, elems_push.append_right _⟩
  · cases h
    exact ⟨⟨hlinked.routers, hlinked.terminals, hlinked.injections, hlinked.ofRouter,
      hlinked.ofRouterTerminals, hlinked.ofTerminal, hlinked.routerRouter, hlinked.routerTerminal,
      hlinked.terminalRouter, hlinked.groups⟩,
      ⟨hfresh.routers, hfresh.terminals, hfresh.injections⟩,
      (elems_push.append_left _).trans List.perm_middle⟩

theorem addLinkFailureInfos_spec
    (h : fs.foldlM NetworkManager.addLinkFailureInfo m = some m') (hlinked : Linked links m)
    (hfresh : Fresh m) : Linked links m' ∧ Fresh m' ∧ m'.noted.Perm (fs ++ m.noted) := by
  induction fs generalizing m with
  | nil =>
    cases h
    exact ⟨hlinked, hfresh, List.Perm.refl _⟩
  | cons f fs ih =>
    rw [List.foldlM_cons] at h
    obtain ⟨m₁, h₁, hrest⟩ := Option.bind_eq_some_iff.1 h
    obtain ⟨hlinked₁, hfresh₁, hperm₁⟩ := addLinkFailureInfo_spec h₁ hlinked hfresh
    obtain ⟨hlinked', hfresh', hperm'⟩ := ih hrest hlinked₁ hfresh₁
    exact ⟨hlinked', hfresh', hperm'.trans ((hperm₁.append_left fs).trans List.perm_middle)⟩

theorem failConnections_lists (h : fs.foldlM NetworkManager.failConnection m = some m') :
    m'.routerTerminalLinkFailureLists = m.routerTerminalLinkFailureLists := by
  induction fs generalizing m with
  | nil =>
    cases h
    rfl
  | cons f fs ih =>
    rw [List.foldlM_cons] at h
    obtain ⟨m₁, h₁, hrest⟩ := Option.bind_eq_some_iff.1 h
    rw [ih hrest]
    simp only [NetworkManager.failConnection] at h₁
    split_ifs at h₁ <;> cases h₁ <;> rfl

theorem noted_foldl_addLink (m : NetworkManager p) (links : List Link) :
    (links.foldl NetworkManager.addLink m).noted = m.noted := by
  induction links generalizing m with
  | nil => rfl
  | cons link links ih =>
    rw [List.foldl_cons, ih, NetworkManager.addLink]
    split_ifs <;> rfl

theorem failures_applied {enabled : Bool} {m₁ m₂ m₃ : NetworkManager p}
    (h₁ : failures.foldlM NetworkManager.addLinkFailureInfo
      (links.foldl NetworkManager.addLink (.new p enabled)) = some m₁)
    (h₂ : (elems m₁.routerLinkFailureLists).foldlM NetworkManager.failConnection m₁ = some m₂)
    (h₃ : (elems m₂.routerTerminalLinkFailureLists).foldlM NetworkManager.failConnection m₂ =
      some m₃) : Linked links m₃ ∧ Failed failures m₃ := by
  have hlinks := linked_foldl (linked_new (p := p) enabled) links
  have hnew : Fresh (NetworkManager.new p enabled) := ⟨by simp [NetworkManager.new],
    by simp [NetworkManager.new], by simp [NetworkManager.new]⟩
  obtain ⟨hlinked₁, hfresh₁, hperm⟩ := addLinkFailureInfos_spec h₁ hlinks (hnew.foldl links)
  obtain ⟨hlinked₂, hfailed₂⟩ := (hfresh₁.failed hlinked₁).failAll hlinked₁ h₂
  obtain ⟨hlinked₃, hfailed₃⟩ := hfailed₂.failAll hlinked₂ h₃
  refine ⟨hlinked₃, hfailed₃.perm ?_⟩
  rw [noted_foldl_addLink] at hperm
  rw [List.nil_append, failConnections_lists h₂]
  have hempty : (NetworkManager.new p enabled).noted = [] := by
    simp [NetworkManager.noted, NetworkManager.new, elems]
  rwa [hempty, List.append_nil] at hperm

/-- **The network before its managers are filled.** -/
theorem solidify_eq_some {enabled : Bool} {net : Network}
    (h : solidify p enabled links failures = some net) : ∃ m : NetworkManager p,
      Linked links m ∧ Failed failures m ∧ m.addConnsToConnectionManagers = some net := by
  obtain ⟨m₁, h₁, hsolid⟩ := Option.bind_eq_some_iff.1 h
  obtain ⟨-, -, hsolid⟩ := Option.bind_eq_some_iff.1 hsolid
  obtain ⟨m₂, h₂, hsolid⟩ := Option.bind_eq_some_iff.1 hsolid
  obtain ⟨m₃, h₃, hadd⟩ := Option.bind_eq_some_iff.1 hsolid
  obtain ⟨hlinked, hfailed⟩ := failures_applied h₁ h₂ h₃
  exact ⟨m₃, hlinked, hfailed, hadd⟩

end CodesSim.NetMan
