import CodesSim.Torus.Reverse
import CodesSim.Lib.Barrier

/-!
# Collective operations of the torus

The nodes of a torus form a tree of degree four.  Every node is started once (`T_COLLECTIVE_INIT`);
the reports of the children go up (`T_COLLECTIVE_FAN_IN`), and when the root has them all the
releases go down (`T_COLLECTIVE_FAN_OUT`).  A node that is released sends the remote event of the
operation to its server.

`Follows` says that the network is where two waves on the tree are, and one lemma for each event
that it stays so.
-/

namespace CodesSim.Torus

/-! ### The tree -/

/-- The parent of a node that is not the root. -/
def parentNode (node : ℕ) : ℕ := (node - (node - 1) % treeDegree) / treeDegree

variable {q : ℕ}

theorem parent_eq_some {c : ℕ} : parent c = some q ↔ c ≠ 0 ∧ parentNode c = q := by
  rw [parent]
  split_ifs with hc
  · simp [hc]
  · simp [hc, parentNode]

theorem parentNode_eq (c : ℕ) : parentNode c = (c - 1) / 4 := by
  rw [parentNode, treeDegree]
  omega

/-- The tree of the collective operations (`torus_collective_init`). -/
def tree (numLps : ℕ) (h : 0 < numLps) : RootedTree ℕ where
  nodes := Finset.range numLps
  root := 0
  parent := parentNode
  rank := id
  root_mem := Finset.mem_range.2 h
  parent_mem n hn hr := by
    have hlt := Finset.mem_range.1 hn
    rw [Finset.mem_range, parentNode_eq]
    omega
  rank_parent n _ hr := by
    rw [id, id, parentNode_eq]
    omega

variable {numLps : ℕ} {h : 0 < numLps}

@[simp] theorem tree_root : (tree numLps h).root = 0 := rfl

@[simp] theorem tree_parent (n : ℕ) : (tree numLps h).parent n = parentNode n := rfl

theorem mem_tree {n : ℕ} : n ∈ (tree numLps h).nodes ↔ n < numLps := Finset.mem_range

/-- **Parents and children agree.** -/
theorem mem_children_iff {c : ℕ} : c ∈ children numLps q ↔ c < numLps ∧ parent c = some q := by
  simp only [children, List.mem_filter, List.mem_map, List.mem_range, decide_eq_true_eq,
    parent_eq_some, treeDegree]
  constructor
  · rintro ⟨⟨i, hi, rfl⟩, hlt⟩
    refine ⟨hlt, by omega, ?_⟩
    rw [parentNode_eq]
    omega
  · rintro ⟨hlt, hc, rfl⟩
    rw [parentNode_eq]
    exact ⟨⟨(c - 1) % 4, by omega, by omega⟩, hlt⟩

theorem nodup_children (q : ℕ) : (children numLps q).Nodup := by
  refine List.Nodup.filter _ (List.Nodup.map_on ?_ List.nodup_range)
  intro i _ j _ hij
  omega

theorem tree_children (q : ℕ) : (tree numLps h).children q = (children numLps q).toFinset := by
  ext c
  rw [RootedTree.mem_children, List.mem_toFinset, mem_children_iff, parent_eq_some]
  exact and_congr_left' Finset.mem_range

/-- **The tree spans all nodes.** -/
theorem reaches_root (n : ℕ) : Relation.ReflTransGen (fun c q => parent c = some q) n 0 := by
  induction n using Nat.strong_induction_on with
  | _ n ih =>
    by_cases hn : n = 0
    · rw [hn]
    · have hlt : parentNode n < n := by
        rw [parentNode_eq]
        omega
      exact .head (parent_eq_some.2 ⟨hn, rfl⟩) (ih _ hlt)

/-! ### The operation -/

/-- A payload for a server, as the name of the server. -/
def NodeOut.toServer : NodeOut → Option Lpid
  | .packet (.server dest _ _) => some dest
  | _ => none

/-- A node, with the servers it has released. -/
structure Member extends NodeState where
  released : List Lpid

/-- What is delivered: an event in flight, by its position. -/
structure Delivery where
  pos : ℕ
  env : FullEnv
  saved : Saved

variable (p : FullParam)

/-- The nodes of a torus, with the servers they release. -/
def collectiveSystem : LpSystem (fun _ : ℕ => Member) NodeEvent (FullEnv × Saved) where
  handle ω n m e := (eventHandler p ω.1 n m.toNodeState ω.2 e).map fun d =>
    (⟨d.state, m.released ++ d.outs.filterMap NodeOut.toServer⟩, d.outs.filterMap NodeOut.toNode)

abbrev CollectiveNet := Net (fun _ : ℕ => Member) NodeEvent

/-- A collective operation: the events in flight are delivered in any order. -/
def collective : Machine CollectiveNet Delivery where
  step net l := (collectiveSystem p).machine.step net (.deliver l.pos (l.env, l.saved))

/-- Every node is about to be started by its server. -/
def collectiveStart (nodes : ℕ → NodeState) (init : ℕ → Msg) : CollectiveNet where
  nodes n := ⟨nodes n, []⟩
  inFlight := (List.range (numNodes p.dimLength)).map fun n => (n, .collectiveInit (init n))

/-! ### What the handlers do -/

/-- The reports of all children of node `n` are in with the next one. -/
abbrev Complete (n : ℕ) (m : NodeState) : Prop := m.numFanNodes + 1 = (myChildren p n).length

/-- The releases of the children of a node. -/
def releases (n : ℕ) (msg : Msg) : List (ℕ × NodeEvent) :=
  (myChildren p n).map fun c => (c, .collectiveFanOut { msg with senderNode := n })

/-- The report of a node to its parent. -/
def report (n : ℕ) (msg : Msg) : ℕ × NodeEvent :=
  (parentNode n, .collectiveFanIn { msg with senderNode := n })

variable {p} {ω : FullEnv × Saved} {n : ℕ} {m m' : Member} {msg : Msg} {outs : List (ℕ × NodeEvent)}

theorem toNode_fanOutOuts (s : NodeState) (base : STime) :
    (fanOutOuts p ω.1 n s base msg).filterMap NodeOut.toNode = releases p n msg := by
  have hzip : ∀ (l : List ℕ) k, (l.zipIdx k).map (fun x => (x.1, NodeEvent.collectiveFanOut
      { msg with senderNode := n })) = l.map fun c => (c, .collectiveFanOut
        { msg with senderNode := n }) := by
    intro l
    induction l with
    | nil => intro k; rfl
    | cons c l ih => intro k; rw [List.zipIdx_cons, List.map_cons, ih, List.map_cons]
  rw [fanOutOuts, releases, ← hzip _ 0, List.filterMap_map, ← List.filterMap_eq_map]
  rfl

theorem toServer_fanOutOuts (s : NodeState) (base : STime) :
    (fanOutOuts p ω.1 n s base msg).filterMap NodeOut.toServer = [] := by
  rw [fanOutOuts, List.filterMap_map]
  exact List.filterMap_eq_nil_iff.2 fun x _ => rfl

theorem toNode_collectiveRemote (s : NodeState) :
    (collectiveRemote p s msg).filterMap NodeOut.toNode = [] := by
  rw [collectiveRemote]
  split_ifs <;> rfl

theorem toServer_collectiveRemote (s : NodeState) :
    (collectiveRemote p s msg).filterMap NodeOut.toServer =
      if msg.remoteEventSizeBytes = 0 then [] else [s.originSvr] := by
  rw [collectiveRemote]
  split_ifs <;> rfl

theorem handle_eq_some {e : NodeEvent}
    (h : (collectiveSystem p).handle ω n m e = some (m', outs)) :
    ∃ d, eventHandler p ω.1 n m.toNodeState ω.2 e = some d ∧
      m' = ⟨d.state, m.released ++ d.outs.filterMap NodeOut.toServer⟩ ∧
      outs = d.outs.filterMap NodeOut.toNode := by
  obtain ⟨d, hd, h⟩ := Option.map_eq_some_iff.1 h
  obtain ⟨rfl, rfl⟩ := Prod.mk.inj h
  exact ⟨d, hd, rfl, rfl⟩

theorem handle_init
    (h : (collectiveSystem p).handle ω n m (.collectiveInit msg) = some (m', outs)) :
    m'.numFanNodes = m.numFanNodes ∧ m'.originSvr = msg.senderSvr ∧ m'.released = m.released ∧
      outs = if myChildren p n = [] then [report n msg] else [] := by
  obtain ⟨d, hd, rfl, rfl⟩ := handle_eq_some h
  simp only [eventHandler, collectiveInitFwd] at hd
  split_ifs at hd with hleaf
  · obtain ⟨up, hup, rfl⟩ := Option.map_eq_some_iff.1 hd
    obtain ⟨-, rfl⟩ := parent_eq_some.1 hup
    refine ⟨rfl, rfl, List.append_nil _, ?_⟩
    rw [if_pos hleaf]
    rfl
  · cases hd
    refine ⟨rfl, rfl, List.append_nil _, ?_⟩
    rw [if_neg hleaf]
    rfl

theorem handle_fanIn
    (h : (collectiveSystem p).handle ω n m (.collectiveFanIn msg) = some (m', outs)) :
    m'.numFanNodes = (if Complete p n m.toNodeState then 0 else m.numFanNodes + 1) ∧
      m'.originSvr = m.originSvr ∧
      m'.released = (if Complete p n m.toNodeState ∧ n = 0 ∧ msg.remoteEventSizeBytes ≠ 0 then
        m.released ++ [m.originSvr] else m.released) ∧
      outs = if Complete p n m.toNodeState then
        if n = 0 then releases p n msg else [report n msg] else [] := by
  obtain ⟨d, hd, rfl, rfl⟩ := handle_eq_some h
  cases hd
  by_cases hc : Complete p n m.toNodeState
  · by_cases hn : n = 0
    · subst hn
      simp only [fanInFwd, show parent 0 = none from rfl, if_pos hc, List.filterMap_append,
        toNode_collectiveRemote, toServer_collectiveRemote, toNode_fanOutOuts,
        toServer_fanOutOuts, List.nil_append, List.append_nil, true_and, and_true, if_true]
      by_cases hk : msg.remoteEventSizeBytes = 0 <;> simp [hk, hc]
    · have hparent : parent n = some (parentNode n) := parent_eq_some.2 ⟨hn, rfl⟩
      simp [fanInFwd, hparent, hc, hn, fanInOut, report, NodeOut.toServer, NodeOut.toNode]
  · cases hp : parent n <;> simp [fanInFwd, hp, hc]

theorem handle_fanOut
    (h : (collectiveSystem p).handle ω n m (.collectiveFanOut msg) = some (m', outs)) :
    m'.numFanNodes = m.numFanNodes ∧ m'.originSvr = m.originSvr ∧
      m'.released = (if msg.remoteEventSizeBytes ≠ 0 then m.released ++ [m.originSvr]
        else m.released) ∧
      outs = releases p n msg := by
  obtain ⟨d, hd, rfl, rfl⟩ := handle_eq_some h
  cases hd
  simp only [fanOutFwd, List.filterMap_append, toNode_collectiveRemote, toServer_collectiveRemote,
    toNode_fanOutOuts, toServer_fanOutOuts, List.nil_append, List.append_nil]
  refine ⟨trivial, trivial, ?_, trivial⟩
  by_cases hk : msg.remoteEventSizeBytes = 0 <;> simp [hk]

/-! ### The invariant -/

open CodesSim.RootedTree (Tag Wave)

/-- What an event in flight stands for. -/
def tagOf : ℕ × NodeEvent → Option (Tag ℕ)
  | (n, .collectiveInit _) => some (.join n)
  | (_, .collectiveFanIn msg) => some (.up msg.senderNode)
  | (n, .collectiveFanOut _) => some (.down n)
  | (_, .packet _) => none

/-- What an event in flight carries; `k` is the size of the remote event that the releases carry. -/
def Carried (init : ℕ → Msg) (k : ℕ) : ℕ × NodeEvent → Prop
  | (n, .collectiveInit msg) => msg = init n
  | (q, .collectiveFanIn msg) => parentNode msg.senderNode = q
  | (_, .collectiveFanOut msg) => msg.remoteEventSizeBytes = k
  | (_, .packet _) => False

/-- In flight is what the waves have on their way, each once. -/
structure Flight (T : RootedTree ℕ) (init : ℕ → Msg) (k : ℕ) (w : Wave ℕ)
    (l : List (ℕ × NodeEvent)) : Prop where
  nodup : (l.map tagOf).Nodup
  mem : ∀ t, some t ∈ l.map tagOf ↔ T.Pending w t
  carried : ∀ x ∈ l, Carried init k x

/-- What a node knows of the waves; `J` says that all nodes were started in time. -/
structure Knows (T : RootedTree ℕ) (init : ℕ → Msg) (k : ℕ) (J : Prop) (w : Wave ℕ) (n : ℕ)
    (m : Member) : Prop where
  counter : m.numFanNodes = T.count w n
  origin : n ∈ w.joined → m.originSvr = (init n).senderSvr
  /-- Without a remote event nothing is sent to the servers. -/
  silent : k = 0 ∨ ¬ T.Out w n → m.released = []
  once : k ≠ 0 → T.Out w n → ∃ v, m.released = [v] ∧ (J → v = (init n).senderSvr)

/-- **The invariant.**  The network is where two waves on the tree are. -/
structure Follows (T : RootedTree ℕ) (init : ℕ → Msg) (k : ℕ) (J : Prop) (w : Wave ℕ)
    (net : CollectiveNet) : Prop where
  sound : T.Sound w
  flight : Flight T init k w net.inFlight
  node : ∀ n ∈ T.nodes, Knows T init k J w n (net.nodes n)
  inTime : J → T.Ready w T.root → ∀ n ∈ T.nodes, n ∈ w.joined

variable {T : RootedTree ℕ} {init : ℕ → Msg} {k k' : ℕ} {J J' : Prop} {w : Wave ℕ} {t : Tag ℕ}

theorem Flight.deliver {l rest : List (ℕ × NodeEvent)} {x : ℕ × NodeEvent}
    (hw : T.Sound w) (h : Flight T init k w l) (hl : l.Perm (x :: rest)) (hx : tagOf x = some t)
    (hnodup : (outs.map tagOf).Nodup) (hmem : ∀ t', some t' ∈ outs.map tagOf ↔ T.Spawns w t t')
    (hrest : ∀ y ∈ rest, Carried init k' y) (houts : ∀ y ∈ outs, Carried init k' y) :
    Flight T init k' (w.deliver t) (rest ++ outs) := by
  have htags : (l.map tagOf).Perm (some t :: rest.map tagOf) := by
    rw [← hx]
    exact hl.map tagOf
  have hcons : (some t :: rest.map tagOf).Nodup := htags.nodup h.nodup
  have hin : ∀ t', T.Pending w t' ↔ t' = t ∨ some t' ∈ rest.map tagOf := by
    intro t'
    rw [← h.mem, htags.mem_iff, List.mem_cons, Option.some_inj]
  have ht : T.Pending w t := (hin t).2 (.inl rfl)
  have hrestOf : ∀ t', some t' ∈ rest.map tagOf ↔ T.Pending w t' ∧ t' ≠ t := by
    intro t'
    rw [hin]
    constructor
    · intro hr
      refine ⟨.inr hr, ?_⟩
      rintro rfl
      exact (List.nodup_cons.1 hcons).1 hr
    · rintro ⟨h | h, hne⟩
      · exact absurd h hne
      · exact h
  have hsome : ∀ a ∈ outs.map tagOf, ∃ t', a = some t' := by
    intro a ha
    obtain ⟨y, hy, rfl⟩ := List.mem_map.1 ha
    obtain ⟨q, e⟩ := y
    have hc := houts _ hy
    cases e with
    | packet e => exact hc.elim
    | _ => exact ⟨_, rfl⟩
  refine ⟨?_, fun t' => ?_, fun y hy => (List.mem_append.1 hy).elim (hrest y) (houts y)⟩
  · rw [List.map_append]
    refine (List.nodup_cons.1 hcons).2.append hnodup fun a har hao => ?_
    obtain ⟨t', rfl⟩ := hsome a hao
    exact RootedTree.not_pending_of_spawns ht ((hmem t').1 hao) ((hrestOf t').1 har).1
  · rw [List.map_append, List.mem_append, hw.pending_deliver ht, hrestOf, hmem]

theorem Knows.deliver_of_ne (h : Knows T init k J w n m) (ht : T.Pending w t)
    (hn : n ≠ T.dest t) : Knows T init k J (w.deliver t) n m where
  counter := by
    rw [RootedTree.count_deliver hn]
    exact h.counter
  origin hj := h.origin ((RootedTree.joined_deliver hn).1 hj)
  silent hs := h.silent (hs.imp_right fun ho hw => ho ((RootedTree.out_deliver hn ht).2 hw))
  once hk ho := h.once hk ((RootedTree.out_deliver hn ht).1 ho)

/-- What the releases carry means nothing to a node before it is let go. -/
theorem Knows.resize (h : Knows T init k J w n m) (ho : ¬ T.Out w n) :
    Knows T init k' J' w n m where
  counter := h.counter
  origin := h.origin
  silent _ := h.silent (.inr ho)
  once _ ho' := absurd ho' ho

theorem Flight.pending {l rest : List (ℕ × NodeEvent)} {x : ℕ × NodeEvent}
    (h : Flight T init k w l) (hl : l.Perm (x :: rest)) (hx : tagOf x = some t) :
    T.Pending w t := by
  refine (h.mem t).1 ?_
  rw [← hx]
  exact List.mem_map_of_mem (hl.mem_iff.2 List.mem_cons_self)

theorem Follows.deliver {net net' : CollectiveNet} {d : ℕ} {e : NodeEvent}
    {rest : List (ℕ × NodeEvent)} (h : Follows T init k J w net)
    (hh : (collectiveSystem p).Handled net net' ω d e m' outs rest)
    (hperm : net.inFlight.Perm ((d, e) :: rest)) (hx : tagOf (d, e) = some t) (hd : T.dest t = d)
    (hnodup : (outs.map tagOf).Nodup) (hmem : ∀ t', some t' ∈ outs.map tagOf ↔ T.Spawns w t t')
    (houts : ∀ y ∈ outs, Carried init k' y)
    (hk : (k' = k ∧ J' = J) ∨ ∀ n, ¬ T.Pending w (.down n) ∧ (n ≠ d → ¬ T.Out w n))
    (hself : Knows T init k' J' (w.deliver t) d m')
    (hinTime : J' → T.Ready (w.deliver t) T.root → ∀ n ∈ T.nodes, n ∈ (w.deliver t).joined) :
    Follows T init k' J' (w.deliver t) net' := by
  have ht : T.Pending w t := h.flight.pending hperm hx
  refine ⟨h.sound.deliver ht, ?_, fun n hn => ?_, hinTime⟩
  · rw [hh.inFlight]
    refine h.flight.deliver h.sound hperm hx hnodup hmem (fun y hy => ?_) houts
    have hy' : y ∈ net.inFlight := hperm.mem_iff.2 (List.mem_cons_of_mem _ hy)
    have hc := h.flight.carried y hy'
    obtain ⟨q, e'⟩ := y
    cases e' with
    | collectiveFanOut msg =>
      obtain ⟨rfl, rfl⟩ | hk := hk
      · exact hc
      · -- before the size is fixed no release is on its way
        exact absurd ((h.flight.mem _).1 (List.mem_map_of_mem hy')) (hk q).1
    | _ => exact hc
  · by_cases hnd : n = d
    · rw [hnd, hh.node_self]
      exact hself
    · rw [hh.node_of_ne hnd]
      have hne : n ≠ T.dest t := by rw [hd]; exact hnd
      obtain ⟨rfl, rfl⟩ | hk := hk
      · exact (h.node n hn).deliver_of_ne ht hne
      · exact ((h.node n hn).resize ((hk n).2 hnd)).deliver_of_ne ht hne

/-! ### One lemma for each event -/

section Steps

variable {hN : 0 < numNodes p.dimLength} {net net' : CollectiveNet} {d : ℕ}
  {rest : List (ℕ × NodeEvent)}

theorem mem_treeChildren {c : ℕ} :
    c ∈ (tree (numNodes p.dimLength) hN).children q ↔ c ∈ myChildren p q := by
  rw [tree_children, List.mem_toFinset, myChildren]

theorem card_treeChildren (q : ℕ) :
    ((tree (numNodes p.dimLength) hN).children q).card = (myChildren p q).length := by
  rw [tree_children, List.toFinset_card_of_nodup (nodup_children q), myChildren]

theorem treeChildren_eq_empty :
    (tree (numNodes p.dimLength) hN).children q = ∅ ↔ myChildren p q = [] := by
  rw [← Finset.card_eq_zero, card_treeChildren, List.length_eq_zero_iff]

theorem map_tagOf_releases (q : ℕ) :
    (releases p q msg).map tagOf = (myChildren p q).map fun c => some (.down c) := by
  rw [releases, List.map_map]
  rfl

theorem nodup_releases (q : ℕ) : ((releases p q msg).map tagOf).Nodup := by
  rw [map_tagOf_releases]
  refine (nodup_children q).map fun a b hab => ?_
  exact Tag.down.inj (Option.some.inj hab)

theorem mem_releases {t' : Tag ℕ} :
    some t' ∈ (releases p q msg).map tagOf ↔ ∃ c ∈ myChildren p q, t' = .down c := by
  rw [map_tagOf_releases, List.mem_map]
  exact exists_congr fun c => and_congr_right fun _ => by rw [Option.some_inj, eq_comm]

theorem carried_releases (hk : msg.remoteEventSizeBytes = k) :
    ∀ y ∈ releases p q msg, Carried init k y := by
  intro y hy
  obtain ⟨c, -, rfl⟩ := List.mem_map.1 hy
  exact hk

theorem Follows.collectiveInit (h2 : 2 ≤ numNodes p.dimLength)
    (h : Follows (tree (numNodes p.dimLength) hN) init k J w net)
    (hh : (collectiveSystem p).Handled net net' ω d (.collectiveInit msg) m' outs rest)
    (hperm : net.inFlight.Perm ((d, .collectiveInit msg) :: rest)) :
    Follows (tree (numNodes p.dimLength) hN) init k J (w.deliver (.join d)) net' := by
  obtain ⟨hfan, horigin, hreleased, rfl⟩ := handle_init hh.handle
  have hmsg : msg = init d := h.flight.carried (d, .collectiveInit msg)
    (hperm.mem_iff.2 List.mem_cons_self)
  have ht := h.flight.pending hperm rfl
  have hroot : myChildren p 0 ≠ [] := by
    have h1 : 1 ∈ myChildren p 0 := mem_children_iff.2 ⟨h2, rfl⟩
    exact List.ne_nil_of_mem h1
  -- the root is no leaf, so being started lets no node go
  have hout : ∀ n, (tree (numNodes p.dimLength) hN).Out (w.deliver (.join d)) n →
      (tree (numNodes p.dimLength) hN).Out w n := by
    rintro n (⟨hr, hready⟩ | hfreed)
    · obtain hw | ⟨he, rfl⟩ := RootedTree.ready_deliver_join.1 hready
      · exact .inl ⟨hr, hw⟩
      · rw [hr] at he
        exact absurd (treeChildren_eq_empty.1 he) hroot
    · exact .inr hfreed
  have hd := h.node d ht.1
  refine h.deliver hh hperm rfl rfl ?_ ?_ ?_ (.inl ⟨rfl, rfl⟩)
    ⟨?_, fun _ => ?_, fun hs => ?_, fun hk ho => ?_⟩ fun hJ hready n hn => ?_
  · split_ifs <;> simp
  · intro t'
    by_cases hleaf : myChildren p d = []
    · have hne : d ≠ 0 := by
        rintro rfl
        exact hroot hleaf
      have he : (tree (numNodes p.dimLength) hN).children d = ∅ := treeChildren_eq_empty.2 hleaf
      cases t' <;> simp [RootedTree.Spawns, hleaf, he, report, tagOf, hne]
    · have he : (tree (numNodes p.dimLength) hN).children d ≠ ∅ :=
        fun h => hleaf (treeChildren_eq_empty.1 h)
      cases t' <;> simp [RootedTree.Spawns, hleaf, he]
  · intro y hy
    split_ifs at hy with hleaf
    · cases List.mem_singleton.1 hy
      rfl
    · cases hy
  · rw [hfan, hd.counter]
    rfl
  · rw [horigin, hmsg]
  · rw [hreleased]
    exact hd.silent (hs.imp_right fun ho hw => ho (hw.deliver ht))
  · rw [hreleased]
    exact hd.once hk (hout d ho)
  · have hw := (hout 0 (.inl ⟨rfl, hready⟩)).resolve_right fun h => h.1 rfl
    exact Finset.mem_insert_of_mem (h.inTime hJ hw.2 n hn)

theorem Follows.reported (h : Follows (tree (numNodes p.dimLength) hN) init k J w net)
    (hperm : net.inFlight.Perm ((d, .collectiveFanIn msg) :: rest)) :
    (tree (numNodes p.dimLength) hN).Pending w (.up msg.senderNode) ∧
      parentNode msg.senderNode = d ∧ d ∈ (tree (numNodes p.dimLength) hN).nodes ∧
      ¬ (tree (numNodes p.dimLength) hN).Ready w d := by
  have ht := h.flight.pending hperm rfl
  have hd : parentNode msg.senderNode = d := h.flight.carried (d, .collectiveFanIn msg)
    (hperm.mem_iff.2 List.mem_cons_self)
  refine ⟨ht, hd, ?_, ?_⟩
  · rw [← hd]
    exact RootedTree.parent_mem _ _ ht.1 ht.2.1
  · rw [← hd]
    exact RootedTree.not_ready_of_up ht

theorem Follows.complete_iff (h : Follows (tree (numNodes p.dimLength) hN) init k J w net)
    (hperm : net.inFlight.Perm ((d, .collectiveFanIn msg) :: rest)) :
    (tree (numNodes p.dimLength) hN).children d ⊆ insert msg.senderNode w.heard ↔
      Complete p d (net.nodes d).toNodeState := by
  obtain ⟨ht, hd, hmem, -⟩ := h.reported hperm
  have hsub := RootedTree.children_sub_iff ht
  rw [tree_parent, hd, card_treeChildren] at hsub
  rw [hsub, Complete, (h.node d hmem).counter]
  omega

theorem Follows.ready_root_iff (h : Follows (tree (numNodes p.dimLength) hN) init k J w net)
    (hperm : net.inFlight.Perm ((d, .collectiveFanIn msg) :: rest)) :
    (tree (numNodes p.dimLength) hN).Ready (w.deliver (.up msg.senderNode)) 0 ↔
      (tree (numNodes p.dimLength) hN).Ready w 0 ∨
        (Complete p d (net.nodes d).toNodeState ∧ d = 0) := by
  obtain ⟨ht, hd, -, -⟩ := h.reported hperm
  rw [RootedTree.ready_deliver_up ht.1 ht.2.1, tree_parent, hd, ← h.complete_iff hperm]
  refine or_congr_right ⟨?_, ?_⟩
  · rintro ⟨rfl, hsub⟩
    exact ⟨hsub, rfl⟩
  · rintro ⟨hsub, rfl⟩
    exact ⟨rfl, hsub⟩

theorem mem_map_tagOf_fanIn {c : ℕ} {P : Prop} [Decidable P] (hd : parentNode c = d)
    (hP : (tree (numNodes p.dimLength) hN).children d ⊆ insert c w.heard ↔ P) (t' : Tag ℕ) :
    some t' ∈ (if P then if d = 0 then releases p d msg else [report d msg] else []).map tagOf ↔
      (tree (numNodes p.dimLength) hN).Spawns w (.up c) t' := by
  by_cases hc : P
  · have hsub := hP.2 hc
    by_cases h0 : d = 0
    · subst h0
      rw [if_pos hc, if_pos rfl, mem_releases]
      cases t' with
      | down m =>
        simp only [RootedTree.Spawns, tree_parent, tree_root, hd, mem_treeChildren, Tag.down.injEq]
        constructor
        · rintro ⟨c, hc, rfl⟩
          exact ⟨trivial, hc, hsub⟩
        · exact fun h => ⟨m, h.2.1, rfl⟩
      | up m =>
        simp only [RootedTree.Spawns, tree_parent, tree_root, hd, reduceCtorEq, and_false,
          exists_false, false_iff]
        rintro ⟨rfl, h, -⟩
        exact h rfl
      | join m => simp [RootedTree.Spawns]
    · rw [if_pos hc, if_neg h0]
      cases t' with
      | up m =>
        simp only [RootedTree.Spawns, report, tagOf, tree_parent, tree_root, hd, List.map_cons,
          List.map_nil, List.mem_singleton, Option.some_inj, Tag.up.injEq]
        constructor
        · rintro rfl
          exact ⟨rfl, h0, hsub⟩
        · exact fun h => h.1
      | _ => simp [RootedTree.Spawns, report, tagOf, hd, h0]
  · rw [if_neg hc]
    have hsub := mt hP.1 hc
    cases t' with
    | up m =>
      simp only [RootedTree.Spawns, tree_parent, hd, List.map_nil, List.not_mem_nil, false_iff]
      rintro ⟨rfl, -, h⟩
      exact hsub h
    | down m =>
      simp only [RootedTree.Spawns, tree_parent, tree_root, hd, List.map_nil, List.not_mem_nil,
        false_iff]
      rintro ⟨rfl, -, h⟩
      exact hsub h
    | join m => simp [RootedTree.Spawns]

theorem Follows.collectiveFanIn
    (h : Follows (tree (numNodes p.dimLength) hN) init k J w net)
    (hh : (collectiveSystem p).Handled net net' ω d (.collectiveFanIn msg) m' outs rest)
    (hperm : net.inFlight.Perm ((d, .collectiveFanIn msg) :: rest))
    (hk' : k' = if Complete p d (net.nodes d).toNodeState ∧ d = 0 then msg.remoteEventSizeBytes
      else k)
    (hJ' : J' = if Complete p d (net.nodes d).toNodeState ∧ d = 0 then
      ∀ n < numNodes p.dimLength, n ∈ w.joined else J) :
    Follows (tree (numNodes p.dimLength) hN) init k' J' (w.deliver (.up msg.senderNode)) net' := by
  obtain ⟨hfan, horigin, hreleased, rfl⟩ := handle_fanIn hh.handle
  obtain ⟨ht, hd, hmemd, hnotready⟩ := h.reported hperm
  have hnode := h.node d hmemd
  have hnotout : d = 0 → ¬ (tree (numNodes p.dimLength) hN).Out w d := by
    rintro h0 (⟨-, hready⟩ | ⟨hr, -⟩)
    · exact hnotready hready
    · exact hr h0
  have hout : (tree (numNodes p.dimLength) hN).Out (w.deliver (.up msg.senderNode)) d ↔
      (tree (numNodes p.dimLength) hN).Out w d ∨
        (Complete p d (net.nodes d).toNodeState ∧ d = 0) := by
    have hready := h.ready_root_iff hperm
    simp only [RootedTree.Out, tree_root, Wave.deliver]
    constructor
    · rintro (⟨rfl, hr⟩ | hfreed)
      · exact (hready.1 hr).imp_left fun hr => .inl ⟨rfl, hr⟩
      · exact .inl (.inr hfreed)
    · rintro (ho | ⟨hc, rfl⟩)
      · exact ho.imp_left fun ho => absurd ho.2 hnotready
      · exact .inl ⟨rfl, hready.2 (.inr ⟨hc, rfl⟩)⟩
  have hcounter := RootedTree.count_deliver_up ht
  rw [tree_parent, hd, card_treeChildren] at hcounter
  refine h.deliver hh hperm rfl hd ?_ (mem_map_tagOf_fanIn hd (h.complete_iff hperm)) ?_ ?_
    ⟨?_, fun hj => ?_, ?_, ?_⟩ ?_
  · split_ifs
    · exact nodup_releases d
    · simp
    · simp
  · intro y hy
    split_ifs at hy with hc h0
    · exact carried_releases (by rw [hk', if_pos ⟨hc, h0⟩]) y hy
    · cases List.mem_singleton.1 hy
      rfl
    · cases hy
  · by_cases hc : Complete p d (net.nodes d).toNodeState ∧ d = 0
    · refine .inr fun n => ?_
      -- the root was not ready, so no node was let go
      have hroot : ¬ (tree (numNodes p.dimLength) hN).Ready w
          (tree (numNodes p.dimLength) hN).root := by
        rw [tree_root, ← hc.2]
        exact hnotready
      refine ⟨fun hp => hroot (h.sound.ready_root_of_out ?_ hp.2.2.1), fun _ ho => ?_⟩
      · exact RootedTree.parent_mem _ _ hp.1 hp.2.1
      · obtain ⟨hr, hready⟩ | ⟨hr, hfreed⟩ := ho
        · exact hroot (hr ▸ hready)
        · exact hroot (h.sound.ready_root_of_out (h.sound.freed n hfreed).1 (.inr ⟨hr, hfreed⟩))
    · exact .inl ⟨by rw [hk', if_neg hc], by rw [hJ', if_neg hc]⟩
  · have hcast : Complete p d (net.nodes d).toNodeState ↔
        (tree (numNodes p.dimLength) hN).count w d + 1 = (myChildren p d).length := by
      rw [Complete, hnode.counter]
      norm_cast
    rw [hfan, hcounter]
    simp only [hcast, hnode.counter]
    split_ifs <;> rfl
  · rw [horigin]
    exact hnode.origin hj
  · rw [hout, hreleased, hk']
    by_cases hc : Complete p d (net.nodes d).toNodeState ∧ d = 0
    · intro hs
      rw [if_pos hc] at hs
      have h0 : msg.remoteEventSizeBytes = 0 := hs.resolve_right fun hs => hs (.inr hc)
      rw [if_neg fun h => h.2.2 h0]
      exact hnode.silent (.inr (hnotout hc.2))
    · intro hs
      rw [if_neg hc] at hs
      rw [if_neg fun h => hc ⟨h.1, h.2.1⟩]
      exact hnode.silent (hs.imp_right fun ho hw => ho (.inl hw))
  · rw [hout, hreleased, hk']
    by_cases hc : Complete p d (net.nodes d).toNodeState ∧ d = 0
    · intro hk _
      rw [if_pos hc] at hk
      rw [if_pos ⟨hc.1, hc.2, hk⟩, hnode.silent (.inr (hnotout hc.2)), hJ', if_pos hc]
      exact ⟨_, rfl, fun hj => hnode.origin (hj d (mem_tree.1 hmemd))⟩
    · intro hk ho
      rw [if_neg hc] at hk
      rw [if_neg fun h => hc ⟨h.1, h.2.1⟩, hJ', if_neg hc]
      exact hnode.once hk (ho.resolve_right hc)
  · rw [hJ']
    split_ifs with hc
    · exact fun hj _ n hn => hj n (mem_tree.1 hn)
    · exact fun hJ hready => h.inTime hJ (((h.ready_root_iff hperm).1 hready).resolve_right hc)

theorem Follows.collectiveFanOut
    (h : Follows (tree (numNodes p.dimLength) hN) init k J w net)
    (hh : (collectiveSystem p).Handled net net' ω d (.collectiveFanOut msg) m' outs rest)
    (hperm : net.inFlight.Perm ((d, .collectiveFanOut msg) :: rest)) :
    Follows (tree (numNodes p.dimLength) hN) init k J (w.deliver (.down d)) net' := by
  obtain ⟨hfan, horigin, hreleased, rfl⟩ := handle_fanOut hh.handle
  have ht := h.flight.pending hperm rfl
  have hk : msg.remoteEventSizeBytes = k := h.flight.carried (d, .collectiveFanOut msg)
    (hperm.mem_iff.2 List.mem_cons_self)
  have hnode := h.node d ht.1
  have hready := h.sound.ready_root_of_out (RootedTree.parent_mem _ _ ht.1 ht.2.1) ht.2.2.1
  have hbefore : (net.nodes d).released = [] := by
    refine hnode.silent (.inr ?_)
    rintro (⟨hr, -⟩ | ⟨-, hfreed⟩)
    · exact ht.2.1 hr
    · exact ht.2.2.2 hfreed
  refine h.deliver hh hperm rfl rfl (nodup_releases d) ?_ (carried_releases hk) (.inl ⟨rfl, rfl⟩)
    ⟨?_, fun hj => ?_, fun hs => ?_, fun hk0 _ => ?_⟩ h.inTime
  · intro t'
    rw [mem_releases]
    cases t' with
    | down c =>
      simp only [RootedTree.Spawns, mem_treeChildren, Tag.down.injEq]
      constructor
      · rintro ⟨c, hc, rfl⟩
        exact hc
      · exact fun hc => ⟨c, hc, rfl⟩
    | _ => simp [RootedTree.Spawns]
  · rw [hfan, hnode.counter]
    rfl
  · rw [horigin]
    exact hnode.origin hj
  · have hout : (tree (numNodes p.dimLength) hN).Out (w.deliver (.down d)) d :=
      .inr ⟨ht.2.1, Finset.mem_insert_self _ _⟩
    have h0 : k = 0 := hs.resolve_right fun hs => hs hout
    rw [hreleased, hk, h0, if_neg fun h => h rfl, hbefore]
  · rw [hreleased, hk, if_pos hk0, hbefore]
    exact ⟨_, rfl, fun hJ => hnode.origin (h.inTime hJ hready d ht.1)⟩

end Steps

end CodesSim.Torus
