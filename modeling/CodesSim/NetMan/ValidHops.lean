import CodesSim.NetMan.Paths

/-!
# Valid next hops

`get_valid_next_hops_conns` gives the connections that start a path within the bounds, whatever the
table has been filled with (`validNextHops_exact`): each entry of the table is an answer (`Sound`),
and a call leaves such a table behind (`correct`).

The search does not leave the plane of the destination.  With links between planes there are paths
that it does not find (`crossing_not_found`).
-/

namespace CodesSim.NetMan

open Walks

variable {p : PathParam} {destConn : Connection} {m : PathManager p} {memo : ValidNextConnMap}
  {links : List Link} {failures : List LinkInfo} {conn conn' : Connection} {valid new : ConnSet}

/-! ### Insertions -/

theorem ConnSet.mem_of_insertAll (h : conn ∈ valid.insertAll new) : conn ∈ valid ∨ conn ∈ new := by
  rw [ConnSet.mem_def, ConnSet.insertAll, Std.ExtTreeMap.getElem?_union, Option.or_eq_some_iff] at h
  exact h.imp_right And.right

theorem ConnSet.port_insertAll (valid new : ConnSet) (h : conn ∈ valid ∨ conn ∈ new) :
    ∃ conn' ∈ valid.insertAll new, conn'.port = conn.port := by
  cases hport : valid.byPort[conn.port]? with
  | some conn' =>
    have heq := valid.port_eq _ _ hport
    refine ⟨conn', ?_, heq⟩
    rw [ConnSet.mem_def, ConnSet.insertAll, Std.ExtTreeMap.getElem?_union, heq, hport]
    rfl
  | none =>
    have hnew : new.byPort[conn.port]? = some conn :=
      h.resolve_left fun hmem => by cases hport.symm.trans (ConnSet.mem_def.1 hmem)
    refine ⟨conn, ?_, rfl⟩
    rw [ConnSet.mem_def, ConnSet.insertAll, Std.ExtTreeMap.getElem?_union, hport, hnew]
    rfl

theorem ConnSet.mem_of_insert (h : conn' ∈ valid.insert conn) : conn' ∈ valid ∨ conn' = conn :=
  (ConnSet.mem_of_insertAll h).imp_right ConnSet.mem_singleton.1

theorem ConnSet.port_insert (valid : ConnSet) (conn : Connection)
    (h : conn' ∈ valid ∨ conn' = conn) : ∃ conn'' ∈ valid.insert conn, conn''.port = conn'.port :=
  ConnSet.port_insertAll _ _ (h.imp_right ConnSet.mem_singleton.2)

/-- A set has connections with a property, and each such connection or one of its port. -/
structure Has (valid : ConnSet) (P : Connection → Prop) : Prop where
  sound : ∀ conn ∈ valid, P conn
  complete : ∀ conn, P conn → ∃ conn' ∈ valid, conn'.port = conn.port

variable {P Q : Connection → Prop}

theorem Has.congr (h : Has valid P) (hPQ : ∀ conn, P conn ↔ Q conn) : Has valid Q :=
  ⟨fun conn hconn => (hPQ conn).1 (h.sound conn hconn),
    fun conn hconn => h.complete conn ((hPQ conn).2 hconn)⟩

theorem Has.empty : Has .empty fun _ => False :=
  ⟨fun _ hconn => absurd hconn ConnSet.not_mem_empty, fun _ => False.elim⟩

theorem Has.isNonempty_iff (h : Has valid P) : valid.isNonempty = true ↔ ∃ conn, P conn := by
  rw [ConnSet.isNonempty_iff]
  constructor
  · rintro ⟨conn, hconn⟩
    exact ⟨conn, h.sound conn hconn⟩
  · rintro ⟨conn, hconn⟩
    obtain ⟨conn', hconn', -⟩ := h.complete conn hconn
    exact ⟨conn', hconn'⟩

theorem Has.insert (h : Has valid P) (conn : Connection) :
    Has (valid.insert conn) fun conn' => P conn' ∨ conn' = conn where
  sound _ h' := (ConnSet.mem_of_insert h').imp_left (h.sound _)
  complete conn' h' := by
    obtain hP | rfl := h'
    · obtain ⟨conn₀, h₀, hport⟩ := h.complete conn' hP
      obtain ⟨conn₁, h₁, hport₁⟩ := ConnSet.port_insert valid conn (.inl h₀)
      exact ⟨conn₁, h₁, hport₁.trans hport⟩
    · exact ConnSet.port_insert valid conn' (.inr rfl)

theorem Has.insertAll (h : Has valid P) (h' : Has new P) : Has (valid.insertAll new) P where
  sound conn hconn := (ConnSet.mem_of_insertAll hconn).elim (h.sound conn) (h'.sound conn)
  complete conn hconn := by
    obtain ⟨conn₀, h₀, hport⟩ := h.complete conn hconn
    obtain ⟨conn₁, h₁, hport₁⟩ := ConnSet.port_insertAll valid new (.inl h₀)
    exact ⟨conn₁, h₁, hport₁.trans hport⟩

theorem Has.mem_iff (h : Has valid P)
    (hports : ∀ conn conn', P conn → P conn' → conn.port = conn'.port → conn = conn') :
    conn ∈ valid ↔ P conn := by
  refine ⟨h.sound conn, fun hP => ?_⟩
  obtain ⟨conn', hconn', hport⟩ := h.complete conn hP
  rwa [← hports conn' conn (h.sound conn' hconn') hP hport]

variable {search : Connection → ValidNextConnMap → ConnSet × ValidNextConnMap}

/-- **The loop** inserts the connections that work and lead on. -/
theorem insertLeading_spec {Inv : ValidNextConnMap → Prop} {Leads : Connection → Prop}
    (hsearch : ∀ conn memo, Inv memo →
      Inv (search conn memo).2 ∧ ((search conn memo).1.isNonempty = true ↔ Leads conn))
    (conns : List Connection) (hinv : Inv memo) (hvalid : Has valid P) :
    Inv (insertLeading search conns (valid, memo)).2 ∧
      Has (insertLeading search conns (valid, memo)).1 fun conn =>
        P conn ∨ (conn ∈ conns ∧ conn.isFailed = false ∧ Leads conn) := by
  induction conns generalizing valid memo P with
  | nil => exact ⟨hinv, hvalid.congr fun conn => by simp⟩
  | cons conn conns ih =>
    rw [insertLeading]
    by_cases hfailed : conn.isFailed = true
    · rw [if_pos hfailed]
      obtain ⟨hinv', hhas⟩ := ih hinv hvalid
      refine ⟨hinv', hhas.congr fun conn' => or_congr_right ?_⟩
      rw [List.mem_cons, or_and_right]
      refine (or_iff_right ?_).symm
      rintro ⟨rfl, hworks, -⟩
      rw [hfailed] at hworks
      cases hworks
    · rw [if_neg hfailed]
      obtain ⟨hinv', hleads⟩ := hsearch conn memo hinv
      have hnext : Has (if (search conn memo).1.isNonempty then valid.insert conn else valid)
          fun conn' => P conn' ∨ (conn' = conn ∧ Leads conn) := by
        split_ifs with hne
        · exact (hvalid.insert conn).congr fun conn' => by rw [and_iff_left (hleads.1 hne)]
        · exact hvalid.congr fun conn' => (or_iff_left fun h => hne (hleads.2 h.2)).symm
      obtain ⟨hinv'', hhas⟩ := ih hinv' hnext
      refine ⟨hinv'', hhas.congr fun conn' => ?_⟩
      rw [or_assoc, List.mem_cons, or_and_right]
      refine or_congr_right (or_congr_left (and_congr_right ?_))
      rintro rfl
      exact (and_iff_right (by simpa using hfailed)).symm

/-- The loop, if a condition holds. -/
theorem insertLeading_if
    {Inv : ValidNextConnMap → Prop} {Leads : Connection → Prop} {c : Prop} [Decidable c]
    (hsearch : c → ∀ conn memo, Inv memo →
      Inv (search conn memo).2 ∧ ((search conn memo).1.isNonempty = true ↔ Leads conn))
    (conns : List Connection) {r : ConnSet × ValidNextConnMap} (hinv : Inv r.2)
      (hvalid : Has r.1 P) :
    Inv (if _h : c then insertLeading search conns r else r).2 ∧
      Has (if _h : c then insertLeading search conns r else r).1 fun conn =>
        P conn ∨ (conn ∈ conns ∧ conn.isFailed = false ∧ c ∧ Leads conn) := by
  split_ifs with hc
  · obtain ⟨hinv', hhas⟩ := insertLeading_spec (hsearch hc) conns hinv hvalid
    exact ⟨hinv', hhas.congr fun conn => by rw [and_iff_right hc]⟩
  · exact ⟨hinv, hvalid.congr fun conn => (or_iff_left fun h => hc h.2.2.1).symm⟩

/-! ### Answers -/

/-- The type of a step: local hops are near, global ones far. -/
def typeOf : Kind → ConnectionType
  | .near => .connLocal
  | .far => .connGlobal

/-- A hop over a connection that works. -/
def connHop (conns : List Connection) (kind : Kind) (i j : ℤ) : Prop :=
  ∃ conn ∈ conns, conn.srcGid = i ∧ conn.destGid = j ∧ conn.isFailed = false ∧
    conn.connType = typeOf kind

/-- A hop over a link that works. -/
def linkHop (links : List Link) (failures : List LinkInfo) (kind : Kind) (i j : ℤ) : Prop :=
  ∃ l ∈ workingBetween links failures i j, l.connType = typeOf kind

/-- A connection that works starts a path from the source to the destination of a query: it is
within the bounds together with the hops that follow. -/
def StartsPath (m : PathManager p) (R : Kind → ℤ → ℤ → Prop) (q : Query) (conn : Connection) :
    Prop :=
  conn ∈ m.routerConns ∧ conn.srcGid = q.srcGid ∧ conn.isFailed = false ∧
    ∃ kind, conn.connType = typeOf kind ∧ R kind conn.srcGid conn.destGid ∧
      Starts R p.maxLocalHopsPerGroup q.maxLocal.toNat q.exactGlobal.toNat kind
      conn.destGid q.destGid

/-- The hops that stay in the plane of a router. -/
def inPlane (p : PathParam) (gid : ℤ) : (Kind → ℤ → ℤ → Prop) → Kind → ℤ → ℤ → Prop :=
  Inside p.planeOf (p.planeOf gid)

/-- The query looks into the table. -/
structure Query.Asks (p : PathParam) (q : Query) : Prop where
  plane : p.planeOf q.srcGid = p.planeOf q.destGid
  nontrivial : ¬ (q.srcGid = q.destGid ∧ q.exactGlobal = 0)
  maxLocal : 0 ≤ q.maxLocal
  exactGlobal : 0 ≤ q.exactGlobal

/-- A set answers a query. -/
def Answers (m : PathManager p) (q : Query) (valid : ConnSet) : Prop :=
  Has valid (StartsPath m (inPlane p q.destGid (connHop m.routerConns)) q)

/-- **Each entry of the table is an answer.** -/
def Sound (m : PathManager p) (memo : ValidNextConnMap) : Prop :=
  ∀ q valid, memo q = some valid → q.Asks p → Answers m q valid

variable {q : Query}

theorem Sound.insertValid (h : Sound m memo) (hvalid : q.Asks p → Answers m q valid) :
    Sound m (insertValid memo q valid) := by
  intro q' valid' hentry hasks
  by_cases hq : q' = q
  · subst hq
    rw [NetMan.insertValid, Function.update_self, Option.some.injEq] at hentry
    subst hentry
    cases hold : memo q' with
    | none =>
      refine ⟨fun conn hconn => ?_, fun conn hconn => ?_⟩
      · exact (hvalid hasks).sound conn
          ((ConnSet.mem_of_insertAll hconn).resolve_left ConnSet.not_mem_empty)
      · obtain ⟨conn₀, h₀, hport⟩ := (hvalid hasks).complete conn hconn
        obtain ⟨conn₁, h₁, hport₁⟩ := ConnSet.port_insertAll .empty _ (.inr h₀)
        exact ⟨conn₁, h₁, hport₁.trans hport⟩
    | some old => exact (h q' old hold hasks).insertAll (hvalid hasks)
  · rw [NetMan.insertValid, Function.update_of_ne hq] at hentry
    exact h q' valid' hentry hasks

/-- The lists of the connections of a type are those of the routers. -/
def Indexed (m : PathManager p) : Prop :=
  Groups.Indexes (fun conn => (conn.connType, conn.srcGid)) m.routerConns m.routerToRouterConnMap

theorem Indexed.mem (h : Indexed m) {ty : ConnectionType} {i : ℤ} :
    conn ∈ m.connsFrom ty i ↔ conn ∈ m.routerConns ∧ conn.connType = ty ∧ conn.srcGid = i := by
  rw [PathManager.connsFrom, deref, h.deref, List.mem_filter, decide_eq_true_eq, Prod.mk.injEq]

theorem Answers.of_same {m' : PathManager p} (h : Answers m' q valid)
    (hsame : m'.toNetworkManager = m.toNetworkManager) : Answers m q valid := by
  unfold Answers StartsPath at *
  rwa [hsame] at h

/-- A call keeps the table sound, finds something if and only if there is a path, and answers. -/
def Correct (m : PathManager p) (destConn : Connection) (destGid : ℤ) (near far : ℕ) (srcGid : ℤ) :
    Prop :=
  ∀ memo, Sound m memo →
    Sound m (m.getValidNextHopsConns destConn srcGid destGid near far memo).2 ∧
    ((m.getValidNextHopsConns destConn srcGid destGid near far memo).1.isNonempty = true ↔
      p.planeOf srcGid = p.planeOf destGid ∧
        Reach (inPlane p destGid (connHop m.routerConns)) p.maxLocalHopsPerGroup near far srcGid
          destGid) ∧
    (Query.Asks p ⟨srcGid, destGid, near, far⟩ →
      Answers m ⟨srcGid, destGid, near, far⟩
        (m.getValidNextHopsConns destConn srcGid destGid near far memo).1)

/-- **A path is empty or starts with a connection.** -/
theorem reach_iff_startsPath {near far : ℕ} {srcGid destGid : ℤ} :
    Reach (inPlane p destGid (connHop m.routerConns)) p.maxLocalHopsPerGroup near far
    srcGid destGid ↔
      (srcGid = destGid ∧ far = 0) ∨ ∃ conn,
        StartsPath m (inPlane p destGid (connHop m.routerConns)) ⟨srcGid, destGid, near, far⟩
        conn := by
  refine reach_iff.trans (or_congr_right ?_)
  constructor
  · rintro ⟨kind, c, ⟨⟨conn, hconn, rfl, rfl, hworks, hty⟩, hplane⟩, hstarts⟩
    exact ⟨conn, hconn, rfl, hworks, kind, hty,
      ⟨⟨conn, hconn, rfl, rfl, hworks, hty⟩, hplane⟩, hstarts⟩
  · rintro ⟨conn, -, rfl, -, kind, -, hstep, hstarts⟩
    exact ⟨kind, conn.destGid, hstep, hstarts⟩

theorem startsPath_iff (hm : Indexed m) {near far : ℕ} {srcGid destGid : ℤ} :
    StartsPath m (inPlane p destGid (connHop m.routerConns)) ⟨srcGid, destGid, near, far⟩ conn ↔
      (conn ∈ m.connsFrom .connLocal srcGid ∧ conn.isFailed = false ∧ 0 < near ∧
        p.planeOf conn.destGid = p.planeOf destGid ∧
        Reach (inPlane p destGid (connHop m.routerConns)) p.maxLocalHopsPerGroup (near - 1) far
          conn.destGid destGid) ∨
      (conn ∈ m.connsFrom .connGlobal srcGid ∧ conn.isFailed = false ∧ 0 < far ∧
        p.planeOf conn.destGid = p.planeOf destGid ∧
        Reach (inPlane p destGid (connHop m.routerConns)) p.maxLocalHopsPerGroup
          p.maxLocalHopsPerGroup (far - 1) conn.destGid destGid) := by
  rw [hm.mem, hm.mem]
  constructor
  · rintro ⟨hconn, hsrc, hworks, kind, hty, ⟨-, hplane⟩, hstarts⟩
    cases kind with
    | near =>
      obtain ⟨hpos, hreach⟩ := starts_near.1 hstarts
      exact .inl ⟨⟨hconn, hty, hsrc⟩, hworks, hpos, hplane, hreach⟩
    | far =>
      obtain ⟨hpos, hreach⟩ := starts_far.1 hstarts
      exact .inr ⟨⟨hconn, hty, hsrc⟩, hworks, hpos, hplane, hreach⟩
  · rintro (⟨⟨hconn, hty, hsrc⟩, hworks, hpos, hplane, hreach⟩ |
      ⟨⟨hconn, hty, hsrc⟩, hworks, hpos, hplane, hreach⟩)
    · exact ⟨hconn, hsrc, hworks, .near, hty, ⟨⟨conn, hconn, rfl, rfl, hworks, hty⟩, hplane⟩,
        starts_near.2 ⟨hpos, hreach⟩⟩
    · exact ⟨hconn, hsrc, hworks, .far, hty, ⟨⟨conn, hconn, rfl, rfl, hworks, hty⟩, hplane⟩,
        starts_far.2 ⟨hpos, hreach⟩⟩

/-- **A call is correct if the calls that it makes are.** -/
theorem Correct.step (hm : Indexed m) {destGid : ℤ} {near far : ℕ}
    (hlocal : 0 < near → ∀ i, Correct m destConn destGid (near - 1) far i)
    (hglobal : 0 < far → ∀ i, Correct m destConn destGid p.maxLocalHopsPerGroup (far - 1) i)
    (srcGid : ℤ) : Correct m destConn destGid near far srcGid := by
  intro memo hsound
  rw [PathManager.getValidNextHopsConns]
  by_cases hplane : p.planeOf srcGid = p.planeOf destGid
  swap
  · rw [if_pos hplane]
    refine ⟨hsound, iff_of_false ?_ fun h => hplane h.1, fun hasks => absurd hasks.plane hplane⟩
    rw [Has.empty.isNonempty_iff]
    exact fun ⟨_, h⟩ => h
  rw [if_neg (not_not.2 hplane)]
  by_cases htrivial : srcGid = destGid ∧ (far : ℤ) = 0
  · have hfar : far = 0 := by exact_mod_cast htrivial.2
    rw [if_pos htrivial]
    refine ⟨hsound, iff_of_true ?_ ⟨hplane, reach_iff_startsPath.2 (.inl ⟨htrivial.1, hfar⟩)⟩,
      fun hasks => absurd htrivial hasks.nontrivial⟩
    exact ConnSet.isNonempty_iff.2 ⟨destConn, ConnSet.mem_singleton.2 rfl⟩
  rw [if_neg htrivial, if_pos ⟨Int.natCast_nonneg near, Int.natCast_nonneg far⟩]
  have hasks : Query.Asks p ⟨srcGid, destGid, near, far⟩ :=
    ⟨hplane, htrivial, Int.natCast_nonneg near, Int.natCast_nonneg far⟩
  have hreach : (∃ conn, StartsPath m (inPlane p destGid (connHop m.routerConns))
      ⟨srcGid, destGid, near, far⟩ conn) ↔ p.planeOf srcGid = p.planeOf destGid ∧
        Reach (inPlane p destGid (connHop m.routerConns)) p.maxLocalHopsPerGroup near far srcGid
          destGid := by
    rw [and_iff_right hplane, reach_iff_startsPath, or_iff_right]
    rintro ⟨heq, hfar⟩
    exact htrivial ⟨heq, by exact_mod_cast hfar⟩
  cases hentry : memo ⟨srcGid, destGid, near, far⟩ with
  | some valid =>
    have hvalid := hsound _ valid hentry hasks
    exact ⟨hsound, hvalid.isNonempty_iff.trans hreach, fun _ => hvalid⟩
  | none =>
    dsimp only
    -- the loop over the local connections, and then that over the global ones
    obtain ⟨hsound₁, hhas₁⟩ := insertLeading_if (c := (0 : ℤ) < near) (fun hpos conn memo' hmemo =>
        have hnear : 0 < near := by exact_mod_cast hpos
        have hcast : ((near - 1 : ℕ) : ℤ) = near - 1 := by omega
        have hcall := hlocal hnear conn.destGid memo' hmemo
        ⟨hcast ▸ hcall.1, hcast ▸ hcall.2.1⟩)
      (m.connsFrom .connLocal srcGid) (r := (.empty, memo)) hsound Has.empty
    obtain ⟨hsound₂, hhas₂⟩ := insertLeading_if (c := (0 : ℤ) < far) (fun hpos conn memo' hmemo =>
        have hfar : 0 < far := by exact_mod_cast hpos
        have hcast : ((far - 1 : ℕ) : ℤ) = far - 1 := by omega
        have hcall := hglobal hfar conn.destGid memo' hmemo
        ⟨hcast ▸ hcall.1, hcast ▸ hcall.2.1⟩)
      (m.connsFrom .connGlobal srcGid) hsound₁ hhas₁
    have hanswers := hhas₂.congr (Q := StartsPath m (inPlane p destGid (connHop m.routerConns))
        ⟨srcGid, destGid, near, far⟩) fun conn => by
      rw [startsPath_iff hm, false_or, Int.natCast_pos, Int.natCast_pos]
    exact ⟨hsound₂.insertValid fun _ => hanswers, hanswers.isNonempty_iff.trans hreach,
      fun _ => hanswers⟩

variable (destConn) in
/-- **Every call is correct**, by induction on the global hops and then on the local ones. -/
theorem correct (hm : Indexed m) (destGid : ℤ) (near far : ℕ) (srcGid : ℤ) :
    Correct m destConn destGid near far srcGid := by
  induction far generalizing near srcGid with
  | zero =>
    induction near generalizing srcGid with
    | zero =>
      exact Correct.step hm (fun h => absurd h (Nat.lt_irrefl 0))
        (fun h => absurd h (Nat.lt_irrefl 0)) srcGid
    | succ near ih =>
      exact Correct.step hm (fun _ i => ih i) (fun h => absurd h (Nat.lt_irrefl 0)) srcGid
  | succ far ihfar =>
    induction near generalizing srcGid with
    | zero =>
      exact Correct.step hm (fun h => absurd h (Nat.lt_irrefl 0))
        (fun _ i => ihfar p.maxLocalHopsPerGroup i) srcGid
    | succ near ih =>
      exact Correct.step hm (fun _ i => ih i) (fun _ i => ihfar p.maxLocalHopsPerGroup i) srcGid

/-! ### Calls -/

/-- A call that does not look into the table leaves it as it is. -/
theorem memo_of_not_asks (hq : ¬ q.Asks p) : (m.getValidNextHopsConns destConn q.srcGid
    q.destGid q.maxLocal q.exactGlobal memo).2 = memo := by
  rw [PathManager.getValidNextHopsConns]
  by_cases hplane : p.planeOf q.srcGid = p.planeOf q.destGid
  swap
  · rw [if_pos hplane]
  rw [if_neg (not_not.2 hplane)]
  by_cases htrivial : q.srcGid = q.destGid ∧ q.exactGlobal = 0
  · rw [if_pos htrivial]
  rw [if_neg htrivial, if_neg fun hbounds => hq ⟨hplane, htrivial, hbounds.1, hbounds.2⟩]

/-- The lists of the connections are right and the table is sound. -/
structure Ready (m : PathManager p) : Prop where
  indexed : Indexed m
  sound : Sound m m.validNextConnMap

variable (destConn) in
/-- A call with a sound table answers the query and leaves a sound table behind. -/
theorem Indexed.answers (h : Indexed m) (hsound : Sound m memo) (hasks : q.Asks p) :
    Sound m (m.getValidNextHopsConns destConn q.srcGid q.destGid q.maxLocal q.exactGlobal memo).2 ∧
      Answers m q
        (m.getValidNextHopsConns destConn q.srcGid q.destGid q.maxLocal q.exactGlobal memo).1 := by
  obtain ⟨srcGid, destGid, maxLocal, exactGlobal⟩ := q
  obtain ⟨near, rfl⟩ := Int.eq_ofNat_of_zero_le hasks.maxLocal
  obtain ⟨far, rfl⟩ := Int.eq_ofNat_of_zero_le hasks.exactGlobal
  have hcall := correct destConn h destGid near far srcGid _ hsound
  exact ⟨hcall.1, hcall.2.2 hasks⟩

variable (destConn) in
/-- **An answer**, whatever the table has been filled with. -/
theorem Ready.ask (h : Ready m) (q : Query) :
    Ready (m.ask destConn q).2 ∧ (q.Asks p → Answers m q (m.ask destConn q).1) := by
  by_cases hasks : q.Asks p
  · obtain ⟨hsound, hanswers⟩ := h.indexed.answers destConn h.sound hasks
    exact ⟨⟨h.indexed, hsound⟩, fun _ => hanswers⟩
  · refine ⟨⟨h.indexed, ?_⟩, fun h => absurd h hasks⟩
    rw [PathManager.ask, memo_of_not_asks hasks]
    exact h.sound

theorem Ready.precalculate (h : Ready m) (q : Query) : Ready (m.precalculate destConn q) := by
  obtain ⟨hready, hanswers⟩ := h.ask destConn q
  exact ⟨hready.indexed, hready.sound.insertValid hanswers⟩

theorem Ready.precalculateAll (h : Ready m) (qs : List Query) :
    Ready (qs.foldl (·.precalculate destConn ·) m) ∧
      (qs.foldl (·.precalculate destConn ·) m).toNetworkManager = m.toNetworkManager := by
  induction qs generalizing m with
  | nil => exact ⟨h, rfl⟩
  | cons q qs ih =>
    obtain ⟨hready, hsame⟩ := ih (h.precalculate q)
    exact ⟨hready, hsame.trans rfl⟩

variable (destConn) in
/-- The network manager after some calls. -/
def PathManager.after (m : PathManager p) (history : List Query) : PathManager p :=
  history.foldl (fun m q => (m.ask destConn q).2) m

variable (destConn) in
theorem Ready.after (h : Ready m) (history : List Query) : Ready (m.after destConn history) ∧
    (m.after destConn history).toNetworkManager = m.toNetworkManager := by
  induction history generalizing m with
  | nil => exact ⟨h, rfl⟩
  | cons q history ih =>
    obtain ⟨hready, hsame⟩ := ih (h.ask destConn q).1
    exact ⟨hready, hsame.trans rfl⟩

/-! ### The links -/

theorem Indexed.foldl_addLink (h : Indexed m) (links : List Link) :
    Indexed (links.foldl PathManager.addLink m) ∧
      (links.foldl PathManager.addLink m).toNetworkManager =
        links.foldl NetworkManager.addLink m.toNetworkManager ∧
      (links.foldl PathManager.addLink m).validNextConnMap = m.validNextConnMap := by
  induction links generalizing m with
  | nil => exact ⟨h, rfl, rfl⟩
  | cons link links ih =>
    have hlink : Indexed (m.addLink link) := by
      by_cases hty : link.connType = .connTerminal
      · have hconns : (m.addLink link).routerConns = m.routerConns := by
          simp [PathManager.addLink, NetworkManager.addLink, hty]
        have hmap : (m.addLink link).routerToRouterConnMap = m.routerToRouterConnMap := by
          simp [PathManager.addLink, hty]
        rw [Indexed, hconns, hmap]
        exact h
      · have hconns : (m.addLink link).routerConns =
            m.routerConns ++ [routerConn p.toNetworkParam link.toLinkInfo] := by
          simp [PathManager.addLink, NetworkManager.addLink, hty]
        have hmap : (m.addLink link).routerToRouterConnMap =
            pushPtr m.routerToRouterConnMap (link.connType, link.srcGid) m.routerConns.length := by
          simp [PathManager.addLink, hty]
        rw [Indexed, hconns, hmap]
        exact Groups.Indexes.append h (routerConn p.toNetworkParam link.toLinkInfo)
    obtain ⟨hindexed, hsame, hmemo⟩ := ih hlink
    exact ⟨hindexed, hsame, hmemo⟩

theorem map_key_of_healthy {conns conns' : List Connection}
    (h : conns.map Connection.healthy = conns'.map Connection.healthy) :
    conns.map (fun conn => (conn.connType, conn.srcGid)) =
      conns'.map fun conn => (conn.connType, conn.srcGid) := by
  have hmap := congrArg (List.map fun conn : Connection => (conn.connType, conn.srcGid)) h
  rwa [List.map_map, List.map_map] at hmap

/-- **A solidified network manager**: its connections are the links, with the failures and with
ports that differ for each router. -/
theorem solidifyPaths_eq_some {enabled : Bool} {net : Network}
    (h : solidifyPaths destConn p enabled links failures = some (m, net)) :
    ∃ nm : NetworkManager p.toNetworkParam, Linked links nm ∧ Failed failures nm ∧
      SamePorts nm.routerConns m.routerConns ∧ Ready m ∧
      (∀ i : ℕ, i < p.totalRouters → ∀ conn ∈ m.routerConns, ∀ conn' ∈ m.routerConns,
        conn.srcGid = i → conn'.srcGid = i → conn.port = conn'.port → conn = conn') ∧
      solidify p.toNetworkParam enabled links failures = some net := by
  have hnew : Indexed (PathManager.new p enabled) := fun _ => rfl
  obtain ⟨hindexed, hmanager, hmemo⟩ := hnew.foldl_addLink links
  obtain ⟨m₁, h₁, hsolid⟩ := Option.bind_eq_some_iff.1 h
  obtain ⟨⟨⟩, h₀, hsolid⟩ := Option.bind_eq_some_iff.1 hsolid
  change guard m₁.inMatrices = some () at h₀
  obtain ⟨m₂, h₂, hsolid⟩ := Option.bind_eq_some_iff.1 hsolid
  obtain ⟨m₃, h₃, hsolid⟩ := Option.bind_eq_some_iff.1 hsolid
  obtain ⟨⟨mans, conns⟩, hports, hsolid⟩ := Option.bind_eq_some_iff.1 hsolid
  obtain ⟨net', hnet, hsolid⟩ := Option.map_eq_some_iff.1 hsolid
  obtain ⟨hm, rfl⟩ := Prod.mk.inj hsolid
  rw [hmanager] at h₁
  change failures.foldlM NetworkManager.addLinkFailureInfo
    (links.foldl NetworkManager.addLink (.new p.toNetworkParam enabled)) = some m₁ at h₁
  obtain ⟨hlinked, hfailed⟩ := failures_applied h₁ h₂ h₃
  obtain ⟨hsame, -, -, hholds⟩ := addConnsToAll_spec (A := fun _ => []) List.nodup_range
    (fun i => hlinked.ofRouter.nodup i)
    (fun i j hij ptr hptr => src_disjoint hlinked.ofRouter hij hptr)
    (fun i _ => holds_new _ _ _ _) (fun i _ conn hconn => by
      obtain hty | hty := hlinked.router_type (mem_of_deref hconn) <;> simp [hty]) hports
  -- the connections have changed, but neither their types nor their sources
  have hkeys : conns.map (fun conn => (conn.connType, conn.srcGid)) =
      (links.foldl PathManager.addLink (.new p enabled)).routerConns.map
        fun conn => (conn.connType, conn.srcGid) := by
    have hfirst := linked_foldl (linked_new (p := p.toNetworkParam) enabled) links
    have hport := congrArg (List.map fun conn : Connection => (conn.connType, conn.srcGid)) hsame
    rw [List.map_map, List.map_map] at hport
    rw [hmanager]
    exact hport.trans (map_key_of_healthy (hlinked.routers.trans hfirst.routers.symm))
  have hready : Ready { links.foldl PathManager.addLink (.new p enabled) with
      toNetworkManager := m₃.setRouterConns conns } := by
    refine ⟨hindexed.congr hkeys, fun q valid hentry => ?_⟩
    dsimp only at hentry
    rw [hmemo] at hentry
    cases hentry
  have hm' : Ready m ∧ m.toNetworkManager = m₃.setRouterConns conns := by
    rw [← hm]
    dsimp only
    split_ifs with henabled
    · exact hready.precalculateAll _
    · exact ⟨hready, rfl⟩
  refine ⟨m₃, hlinked, hfailed, hm'.2 ▸ hsame, hm'.1, ?_, ?_⟩
  · rw [hm'.2]
    intro i hi conn hconn conn' hconn' hsrc hsrc' hport
    have hA := (hholds i (List.mem_range.2 hi)).1
    have hsrcs := congrArg (List.map Connection.srcGid) hsame
    rw [List.map_map, List.map_map] at hsrcs
    have hderef : deref conns (m₃.routerConnectionsMap i) =
        conns.filter fun conn => conn.srcGid = (i : ℤ) := (hlinked.ofRouter.congr hsrcs).deref i
    have hmem : ∀ conn ∈ conns, conn.srcGid = i →
      conn ∈ deref conns (m₃.routerConnectionsMap i) := by
      intro conn hconn hsrc
      rw [hderef]
      exact List.mem_filter.2 ⟨hconn, by simpa using hsrc⟩
    have h₁ := hA.ports conn (hmem conn hconn hsrc)
    have h₂ := hA.ports conn' (hmem conn' hconn' hsrc')
    rw [hport, h₂, Option.some.injEq] at h₁
    exact h₁.symm
  · rw [solidify, h₁, Option.bind_some, NetworkManager.solidifyNetwork, h₀, Option.bind_some, h₂,
      Option.bind_some, h₃, Option.bind_some, hnet]

/-- **The hops over connections that work** are those over links that work. -/
theorem connHop_iff {nm : NetworkManager p.toNetworkParam} (h : Linked links nm)
    (hfailed : Failed failures nm) {conns : List Connection}
    (hsame : SamePorts nm.routerConns conns)
    (kind : Kind) (i j : ℤ) : connHop conns kind i j ↔ linkHop links failures kind i j := by
  have hports : connHop conns kind i j ↔ connHop nm.routerConns kind i j :=
    ⟨hsame.symm.exists fun _ => Iff.rfl, hsame.exists fun _ => Iff.rfl⟩
  have hends (conn : Connection) : conn.ends = (i, j) ↔ conn.srcGid = i ∧ conn.destGid = j := by
    rw [Connection.ends, Prod.mk.injEq]
  rw [hports]
  constructor
  · rintro ⟨conn, hconn, hsrc, hdest, hworks, hty⟩
    obtain ⟨l, hl, heq⟩ := h.link_of_conn (h.working hfailed i j) hconn
      ((hends conn).2 ⟨hsrc, hdest⟩) (by rw [hworks]; rfl)
    exact ⟨l, hl, (congrArg Connection.connType heq).symm.trans hty⟩
  · rintro ⟨l, hl, hty⟩
    obtain ⟨conn, hconn, hij, hworks, heq⟩ := h.conn_of_link (h.working hfailed i j) hl
    obtain ⟨hsrc, hdest⟩ := (hends conn).1 hij
    exact ⟨conn, hconn, hsrc, hdest, (Bool.not_eq_true' _).mp hworks,
      (congrArg Connection.connType heq).trans hty⟩

theorem startsPath_inPlane_iff {R : Kind → ℤ → ℤ → Prop}
    (hR : ∀ kind i j, R kind i j → p.planeOf i = p.planeOf j)
    (hplane : p.planeOf q.srcGid = p.planeOf q.destGid) :
    StartsPath m (inPlane p q.destGid R) q conn ↔ StartsPath m R q conn := by
  refine and_congr_right fun _ => and_congr_right fun hsrc => and_congr_right fun _ =>
    exists_congr fun kind => and_congr_right fun _ => ?_
  rw [hsrc]
  constructor
  · rintro ⟨⟨hstep, hdest⟩, steps, hwalk, hwithin⟩
    exact ⟨hstep, steps, hwalk.mono fun _ _ _ h => h.1, hwithin⟩
  · rintro ⟨hstep, steps, hwalk, hwithin⟩
    have hdest : p.planeOf conn.destGid = p.planeOf q.destGid := (hR _ _ _ hstep).symm.trans hplane
    refine ⟨⟨hstep, hdest⟩, steps, ?_, hwithin⟩
    rw [inPlane, ← hdest]
    exact (walk_inside_iff hR).2 hwalk

/-- A set has exactly the connections that start a path. -/
def Exact (m : PathManager p) (R : Kind → ℤ → ℤ → Prop) (q : Query) (valid : ConnSet) : Prop :=
  ∀ conn, conn ∈ valid ↔ StartsPath m R q conn

/-- **The valid next hops.**  After any calls a query gives exactly the connections that work and
start a path of working links within the bounds that stays in the plane, as it does with an empty
table. Where no link leads from one plane to another these are all paths. -/
theorem validNextHops_exact {enabled : Bool} {net : Network}
    (h : solidifyPaths destConn p enabled links failures = some (m, net)) (history : List Query)
    {q : Query} (hsrc : 0 ≤ q.srcGid ∧ q.srcGid < p.totalRouters) (hasks : q.Asks p) :
    Exact m (inPlane p q.destGid (linkHop links failures)) q
      ((m.after destConn history).ask destConn q).1 ∧
    ((m.after destConn history).ask destConn q).1 =
    (m.getValidNextHopsConns destConn q.srcGid q.destGid
      q.maxLocal q.exactGlobal fun _ => none).1 ∧
    ((∀ l ∈ links, l.connType ≠ .connTerminal → p.planeOf l.srcGid = p.planeOf l.destGid) →
      Exact m (linkHop links failures) q ((m.after destConn history).ask destConn q).1) := by
  obtain ⟨nm, hlinked, hfailed, hsame, hready, hports, -⟩ := solidifyPaths_eq_some h
  have hiff (R : Kind → ℤ → ℤ → Prop) (hR : R = inPlane p q.destGid (linkHop links failures))
      {valid : ConnSet} (hvalid : Answers m q valid) : Exact m R q valid := by
    have heq : inPlane p q.destGid (connHop m.routerConns) = R := by
      rw [hR]
      ext kind i j
      exact and_congr_left fun _ => connHop_iff hlinked hfailed hsame kind i j
    rw [Answers, heq] at hvalid
    intro conn
    refine hvalid.mem_iff fun conn₁ conn₂ h₁ h₂ => ?_
    obtain ⟨i, hi⟩ := Int.eq_ofNat_of_zero_le hsrc.1
    exact hports i (by exact_mod_cast hi ▸ hsrc.2) conn₁ h₁.1 conn₂ h₂.1 (h₁.2.1.trans hi)
      (h₂.2.1.trans hi)
  obtain ⟨hafter, hsameLinks⟩ := hready.after destConn history
  have hanswers := ((hafter.ask destConn q).2 hasks).of_same hsameLinks
  have hexact := hiff _ rfl hanswers
  have hnone : Sound m fun _ => none := fun _ _ hentry => by cases hentry
  have hempty := hiff _ rfl (hready.indexed.answers destConn hnone hasks).2
  refine ⟨hexact, ConnSet.ext fun conn => (hexact conn).trans (hempty conn).symm,
    fun hlinks conn => ?_⟩
  refine (hexact conn).trans (startsPath_inPlane_iff ?_ hasks.plane)
  rintro kind i j ⟨l, hl, hty⟩
  obtain ⟨hmem, hbetween⟩ := List.mem_filter.1 (List.mem_of_mem_drop hl)
  obtain ⟨hnot, rfl, rfl⟩ : l.connType ≠ .connTerminal ∧ l.srcGid = i ∧ l.destGid = j := by
    simpa using hbetween
  exact hlinks l hmem hnot

/-! ### Two planes -/

/-- Two planes of two routers, each a group of its own. -/
def twoPlanes : PathParam where
  totalRouters := 4
  totalTerminals := 0
  numRoutersPerGroup := 1
  numLcPr := 1
  numGcPr := 2
  numCnPr := 1
  numRails := 1
  totalPlanes := 2
  maxLocalHopsPerGroup := 1
  maxGlobalHops := 2
  uniform := by decide
  planes_pos := by decide

/-- Paths from router 0 to router 1 with some global hops. -/
def fromZeroToOne (exactGlobal : ℤ) : Query := ⟨0, 1, 1, exactGlobal⟩

theorem asks_fromZeroToOne (exactGlobal : ℕ) : (fromZeroToOne exactGlobal).Asks twoPlanes where
  plane := (by decide : twoPlanes.planeOf 0 = twoPlanes.planeOf 1)
  nontrivial h := absurd h.1 (by decide : (0 : ℤ) ≠ 1)
  maxLocal := Int.one_nonneg
  exactGlobal := Int.natCast_nonneg _

/-- A value of the connection that is never set. -/
def unsetConn : Connection := ⟨0, 0, 0, 0, 0, 0, 0, false, 0, .connLocal⟩

/-- Two links from router 0 to router 1, of which one has failed, and one back. -/
def linksOfPlane : List Link := [globalLink 0 1, globalLink 0 1, globalLink 1 0]

/-- After a query for paths with three global hops, one for those with one. -/
theorem validNextHops_linksOfPlane : ∃ m net,
    solidifyPaths unsetConn twoPlanes true linksOfPlane [(globalLink 0 1).toLinkInfo] =
    some (m, net) ∧
      Exact m (linkHop linksOfPlane [(globalLink 0 1).toLinkInfo]) (fromZeroToOne 1)
        ((m.after unsetConn [fromZeroToOne 3]).ask unsetConn (fromZeroToOne 1)).1 := by
  have hsome : (solidifyPaths unsetConn twoPlanes true linksOfPlane
      [(globalLink 0 1).toLinkInfo]).isSome = true := by
    with_unfolding_all rfl
  obtain ⟨⟨m, net⟩, h⟩ := Option.isSome_iff_exists.1 hsome
  exact ⟨m, net, h, (validNextHops_exact h [fromZeroToOne 3] (by decide) (asks_fromZeroToOne 1)).2.2
    (by decide)⟩

/-- Links from one plane to the other and back. -/
def crossingLinks : List Link := [globalLink 0 2, globalLink 2 1]

/-- **A path through the other plane is not found.** -/
theorem crossing_not_found : ∃ m net,
    solidifyPaths unsetConn twoPlanes true crossingLinks [] = some (m, net) ∧
      (fromZeroToOne 2).Asks twoPlanes ∧
      ¬ Exact m (linkHop crossingLinks []) (fromZeroToOne 2)
      (m.ask unsetConn (fromZeroToOne 2)).1 := by
  have hsome : (solidifyPaths unsetConn twoPlanes true crossingLinks []).isSome = true := by
    with_unfolding_all rfl
  obtain ⟨⟨m, net⟩, h⟩ := Option.isSome_iff_exists.1 hsome
  obtain ⟨nm, hlinked, hfailed, hsame, hready, -⟩ := solidifyPaths_eq_some h
  refine ⟨m, net, h, asks_fromZeroToOne 2, fun hexact => ?_⟩
  have hfirst : linkHop crossingLinks [] .far 0 2 := ⟨globalLink 0 2, List.mem_cons_self, rfl⟩
  have hsecond : linkHop crossingLinks [] .far 2 1 := ⟨globalLink 2 1, List.mem_cons_self, rfl⟩
  obtain ⟨conn, hconn, hsrc, hdest, hworks, hty⟩ :=
    (connHop_iff hlinked hfailed hsame .far 0 2).2 hfirst
  have hstarts : StartsPath m (linkHop crossingLinks []) (fromZeroToOne 2) conn := by
    refine ⟨hconn, hsrc, hworks, .far, hty, ?_, [(.far, 1)], ?_, ?_⟩
    · rwa [hsrc, hdest]
    · rw [hdest]
      exact ⟨hsecond, rfl⟩
    · exact ⟨by decide, by decide, by decide⟩
  obtain ⟨-, -, -, kind, -, ⟨-, hplane⟩, -⟩ :=
    ((hready.ask _ _).2 (asks_fromZeroToOne 2)).sound conn ((hexact conn).2 hstarts)
  rw [hdest] at hplane
  exact absurd hplane (by decide)

end CodesSim.NetMan
