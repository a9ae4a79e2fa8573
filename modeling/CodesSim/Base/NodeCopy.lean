import CodesSim.Base.Lp

/-!
# Copies inside a node

A message between two LPs of one NIC is copied, and each NIC has some queues for that.  The servers
of a router are dealt out to the NICs and then to their queues, both times with a division that
rounds down, so that the last servers get an index behind the queues unless the servers can be dealt
out evenly (`nodeQueue_in_range_iff`).
-/

namespace CodesSim

/-- `servers_per_node_queue`. -/
def serversPerNodeQueue (numServers nicsPerRouter nodeCopyQueues : ℕ) : ℕ :=
  max 1 (numServers / nicsPerRouter / nodeCopyQueues)

/-- The copy queue of the server at an offset. -/
def nodeQueue (numServers nicsPerRouter nodeCopyQueues offset : ℕ) : ℕ :=
  offset / nicsPerRouter / serversPerNodeQueue numServers nicsPerRouter nodeCopyQueues

section Handlers

variable {c : BaseCtx} {sv : Servers} {ns : BaseState} {b : BaseBf} {m : BaseMsg} {now : STime}
  {first src : Lpid} {i : CodesMapping.LpInfo2} {offset : ℕ}

/-- The index that `handle_new_msg` and its reverse work out. -/
theorem copyQueue_eq (hfirst : CodesMapping.getLpInfo2 c.conf first = .ok i)
    (hsv : Servers.get c ns first none = some sv) (hoffset : lpOffset c src = some offset) :
    copyQueue c sv ns.nicsPerRouter src =
      some (nodeQueue (CodesMapping.getLpCount c.conf i.groupName i.lpTypeName) ns.nicsPerRouter
        ns.params.nodeCopyQueues offset) := by
  simp only [Servers.get, hfirst] at hsv
  split_ifs at hsv with hzero
  obtain rfl := Option.some.inj hsv
  have hnics : ¬ns.nicsPerRouter = 0 := fun h => hzero (.inr (.inl h))
  rw [copyQueue, hoffset, Option.bind_some, if_neg hnics]
  rfl

/-- The handler stays inside the array exactly for an index in range. -/
theorem sameNic_isSome {queue : ℕ}
    (hqueue : copyQueue c sv ns.nicsPerRouter m.req.srcLp = some queue) :
    (sameNic c sv ns b m now).isSome = true ↔ queue < ns.nodeCopyNextAvailableTime.length := by
  rw [sameNic, hqueue]
  dsimp only [Option.bind_eq_bind, Option.bind_some]
  cases havailable : ns.nodeCopyNextAvailableTime[queue]? with
  | none => simpa using List.getElem?_eq_none_iff.1 havailable
  | some available => simpa using (List.getElem?_eq_some_iff.1 havailable).1

end Handlers

/-! ### The index -/

section Index

variable {numServers nicsPerRouter nodeCopyQueues : ℕ}

theorem nodeQueue_lt_iff (hnics : 0 < nicsPerRouter) (offset : ℕ) :
    nodeQueue numServers nicsPerRouter nodeCopyQueues offset < nodeCopyQueues ↔
      offset < nicsPerRouter * nodeCopyQueues *
        serversPerNodeQueue numServers nicsPerRouter nodeCopyQueues := by
  have hper : 0 < serversPerNodeQueue numServers nicsPerRouter nodeCopyQueues :=
    Nat.lt_of_lt_of_le Nat.one_pos (le_max_left _ _)
  rw [nodeQueue, Nat.div_lt_iff_lt_mul hper, Nat.div_lt_iff_lt_mul hnics,
    mul_right_comm, mul_comm _ nicsPerRouter, mul_assoc, mul_comm nodeCopyQueues]

/-- The rounded shares cover the servers if they are too few to be dealt out, or come out even. -/
theorem le_mul_serversPerNodeQueue_iff :
    numServers ≤ nicsPerRouter * nodeCopyQueues *
        serversPerNodeQueue numServers nicsPerRouter nodeCopyQueues ↔
      numServers ≤ nicsPerRouter * nodeCopyQueues ∨
      nicsPerRouter * nodeCopyQueues ∣ numServers := by
  rw [serversPerNodeQueue, Nat.div_div_eq_div_mul]
  generalize nicsPerRouter * nodeCopyQueues = queues
  by_cases hfew : numServers / queues ≤ 1
  · rw [max_eq_left hfew, mul_one]
    refine ⟨.inl, fun h => h.elim id fun ⟨share, hshare⟩ => ?_⟩
    rw [hshare] at hfew ⊢
    obtain rfl | hpos := Nat.eq_zero_or_pos queues
    · rw [zero_mul]
    · rw [Nat.mul_div_cancel_left share hpos] at hfew
      exact (Nat.mul_le_mul_left queues hfew).trans_eq (mul_one queues)
  · rw [max_eq_right (by omega)]
    have hmany : ¬numServers ≤ queues := fun h => hfew (Nat.div_le_of_le_mul (by omega))
    refine ⟨fun h => .inr ⟨_, le_antisymm h (Nat.mul_div_le numServers queues)⟩, ?_⟩
    rintro (h | h)
    · exact absurd h hmany
    · exact (Nat.mul_div_cancel' h).ge

/-- **Copy queues.**  The index of every server is one of the copy queues if and only if there is at
most one server for each queue, or each queue has the same number of servers. -/
theorem nodeQueue_in_range_iff (numServers nicsPerRouter nodeCopyQueues : ℕ)
    (hservers : 0 < numServers) (hnics : 0 < nicsPerRouter) :
    (∀ offset < numServers,
        nodeQueue numServers nicsPerRouter nodeCopyQueues offset < nodeCopyQueues) ↔
      numServers ≤ nicsPerRouter * nodeCopyQueues ∨
      nicsPerRouter * nodeCopyQueues ∣ numServers := by
  rw [← le_mul_serversPerNodeQueue_iff]
  constructor
  · intro h
    have hlast := (nodeQueue_lt_iff hnics _).1 (h (numServers - 1) (by omega))
    omega
  · intro h offset hoffset
    exact (nodeQueue_lt_iff hnics offset).2 (hoffset.trans_le h)

theorem nodeQueue_in_range_even : 1 * 4 ∣ 8 ∧ nodeQueue 8 1 4 7 < 4 :=
  ⟨by decide, (nodeQueue_in_range_iff 8 1 4 (by decide) (by decide)).2 (.inr (by decide)) 7
    (by decide)⟩

end Index

/-- Seven servers and a NIC, for which four copy queues are configured. -/
def sevenServers : BaseCtx where
  conf := [⟨"G", 1, [⟨"server", none, 7⟩, ⟨"nic", none, 1⟩]⟩]
  gid := 7
  cnDelay := 1
  latency := fun _ => 1
  isFreezingOn := false

/-- **A copy leaves the array.**  The last server has the index 6, and its message is not
handled. -/
theorem copy_leaves_array : ∃ offset < 7, ¬nodeQueue 7 1 4 offset < 4 ∧
    lpOffset sevenServers 6 = some offset ∧
    ∀ m : BaseMsg, m.req.srcLp = 6 → ∀ sv, Servers.get sevenServers
      (.init .simplep2p 1 ⟨⟨.fcfs, 0, .fcfs⟩, 512, 1, 0, 4⟩ 0) 6 none = some sv →
        sameNic sevenServers sv (.init .simplep2p 1 ⟨⟨.fcfs, 0, .fcfs⟩, 512, 1, 0, 4⟩ 0)
          ⟨false, false, false⟩ m 0 = none := by
  have hoffset : lpOffset sevenServers 6 = some 6 := by decide
  refine ⟨6, by decide, by decide, hoffset, fun m hm sv hsv => ?_⟩
  have hqueue := copyQueue_eq (i := ⟨"G", "server", none, 0, 6⟩) (by decide) hsv hoffset
  rw [← hm] at hqueue
  refine Option.not_isSome_iff_eq_none.1 fun h => ?_
  have hlt := (sameNic_isSome hqueue).1 h
  revert hlt
  decide

end CodesSim
