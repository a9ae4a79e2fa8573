import Mathlib.Algebra.Ring.Nat
import Mathlib.Tactic.Common

/-!
# The wiring of a dragonfly

A group of a dragonfly has `num_routers` routers, which are all connected to each other, and each
of them has `num_routers / 2` global channels; there is one group more than a group has global
channels.  `router_setup` gives the channels their targets.  The routing does not look at this
table: `getRouterFromGroupID`, `get_next_stop` and `get_output_port` compute the router, the other
end and the port of a link from the two groups.  All these numbers are `int`s; those of routers are
below `total_routers`, so they are natural numbers here as long as that is an `int`.

Both follow one numbering: `slot` is the number of the channel, among those of a group, that leads
to a group (`globalChannel_eq`).  So every channel has an end to itself (`wiring_matched`), and any
two groups are joined by exactly one link, the one that the routing takes.
-/

namespace CodesSim.Dragonfly

/-- What `dragonfly_read_config` and `router_setup` read: the routers of a group, and the groups
that the configuration has. -/
structure Param where
  numRouters : ℕ
  numRealGroups : ℕ

namespace Param

variable (p : Param)

/-! ### The derived parameters -/

def numCn : ℕ := p.numRouters / 2

def numGlobalChannels : ℕ := p.numRouters / 2

def numGroups : ℕ := p.numRouters * p.numCn + 1

def radix : ℕ := p.numRouters + p.numGlobalChannels + p.numCn

def totalRouters : ℕ := p.numGroups * p.numRouters

/-- `group_id` of a router. -/
def groupId (router : ℕ) : ℕ := router / p.numRouters

/-- `getRouterFromGroupID`: the router of the group `srcGid` that connects to the group
`destGid`. -/
def getRouterFromGroupID (destGid srcGid : ℕ) : ℕ :=
  let dest := if destGid = p.numGroups - 1 then srcGid else destGid
  srcGid * p.numRouters + dest % p.numRouters

/-- The entry of a channel in the table that `router_setup` fills. -/
def globalChannel (router i : ℕ) : ℕ :=
  let first := router % p.numRouters + i * p.numRouters
  let targetGrp := if first = p.groupId router then p.numGroups - 1 else first
  let myPos := if p.groupId router = p.numGroups - 1 then targetGrp % p.numRouters
    else p.groupId router % p.numRouters
  targetGrp * p.numRouters + myPos

/-! ### Slots -/

/-- The number of the channel, among those of the group `g`, that leads to the group `g'`. -/
def slot (g g' : ℕ) : ℕ := if g' = p.numGroups - 1 then g else g'

/-- The group that a channel of the group `g` leads to. -/
def target (g t : ℕ) : ℕ := if t = g then p.numGroups - 1 else t

variable {p} {g g' t : ℕ}

theorem numGroups_sub_one : p.numGroups - 1 = p.numRouters * p.numGlobalChannels := rfl

theorem slot_lt (hne : g ≠ g') (hg : g < p.numGroups) (hg' : g' < p.numGroups) :
    p.slot g g' < p.numRouters * p.numGlobalChannels := by
  rw [← numGroups_sub_one, slot]
  split_ifs <;> omega

theorem target_lt (ht : t < p.numRouters * p.numGlobalChannels) : p.target g t < p.numGroups := by
  have hgroups : p.numGroups = p.numRouters * p.numGlobalChannels + 1 := rfl
  rw [target]
  split_ifs <;> omega

theorem target_ne (ht : t < p.numRouters * p.numGlobalChannels) :
    p.target g t ≠ g := by
  have hgroups : p.numGroups = p.numRouters * p.numGlobalChannels + 1 := rfl
  rw [target]
  split_ifs <;> omega

theorem target_slot (hne : g ≠ g') : p.target g (p.slot g g') = g' := by
  rw [target, slot]
  split_ifs <;> omega

theorem slot_target (ht : t < p.numRouters * p.numGlobalChannels) :
    p.slot g (p.target g t) = t := by
  have hgroups : p.numGroups = p.numRouters * p.numGlobalChannels + 1 := rfl
  rw [slot, target]
  split_ifs <;> omega

theorem getRouterFromGroupID_eq (g' g : ℕ) :
    p.getRouterFromGroupID g' g = g * p.numRouters + p.slot g g' % p.numRouters := rfl

/-- The table in terms of slots: a channel leads to the router that connects back. -/
theorem globalChannel_eq (router i : ℕ) :
    p.globalChannel router i = p.getRouterFromGroupID (p.groupId router)
      (p.target (p.groupId router) (router % p.numRouters + i * p.numRouters)) := by
  simp only [globalChannel, getRouterFromGroupID, target]
  by_cases h : p.groupId router = p.numGroups - 1
  · rw [if_pos h, if_pos h]
  · rw [if_neg h, if_neg h]

theorem mod_getRouterFromGroupID (g' g : ℕ) :
    p.getRouterFromGroupID g' g % p.numRouters = p.slot g g' % p.numRouters := by
  rw [getRouterFromGroupID_eq, Nat.mul_comm, Nat.mul_add_mod, Nat.mod_mod]

section Positive

variable (hp : 0 < p.numRouters)

include hp

theorem groupId_getRouterFromGroupID (g' g : ℕ) : p.groupId (p.getRouterFromGroupID g' g) = g := by
  rw [getRouterFromGroupID_eq, groupId, Nat.mul_comm, Nat.mul_add_div hp,
    Nat.div_eq_of_lt (Nat.mod_lt _ hp), Nat.add_zero]

theorem groupId_lt {router : ℕ} : p.groupId router < p.numGroups ↔ router < p.totalRouters :=
  Nat.div_lt_iff_lt_mul hp

/-- The slot of a channel of a router. -/
theorem channel_lt (router : ℕ) {i : ℕ} (hi : i < p.numGlobalChannels) :
    router % p.numRouters + i * p.numRouters < p.numRouters * p.numGlobalChannels := by
  have hmod := Nat.mod_lt router hp
  calc router % p.numRouters + i * p.numRouters
      < p.numRouters + i * p.numRouters := Nat.add_lt_add_right hmod _
    _ = p.numRouters * (i + 1) := by rw [Nat.mul_comm, Nat.mul_succ, Nat.add_comm]
    _ ≤ p.numRouters * p.numGlobalChannels := Nat.mul_le_mul_left _ hi

theorem groupId_globalChannel (router i : ℕ) : p.groupId (p.globalChannel router i) =
    p.target (p.groupId router) (router % p.numRouters + i * p.numRouters) := by
  rw [globalChannel_eq, groupId_getRouterFromGroupID hp]

/-- **The channel to a group**: of a router, the channel `i` leads to the group `g'` iff the router
connects to it and the slot says so. -/
theorem groupId_globalChannel_eq_iff {router i : ℕ} (hi : i < p.numGlobalChannels)
    (hne : p.groupId router ≠ g') (hg' : g' < p.numGroups) :
    p.groupId (p.globalChannel router i) = g' ↔
      router = p.getRouterFromGroupID g' (p.groupId router) ∧
        i = p.slot (p.groupId router) g' / p.numRouters := by
  have hlt := channel_lt hp router hi
  rw [groupId_globalChannel hp]
  have hslot : p.target (p.groupId router) (router % p.numRouters + i * p.numRouters) = g' ↔
      router % p.numRouters + i * p.numRouters = p.slot (p.groupId router) g' := by
    constructor
    · rintro rfl
      exact (slot_target hlt).symm
    · rintro heq
      rw [heq, target_slot hne]
  rw [hslot, getRouterFromGroupID_eq]
  have hsplit : router = p.groupId router * p.numRouters + router % p.numRouters :=
    (Nat.div_add_mod' router p.numRouters).symm
  constructor
  · intro heq
    have hmod := congrArg (· % p.numRouters) heq
    have hdiv := congrArg (· / p.numRouters) heq
    simp only [Nat.add_mul_mod_self_right, Nat.mod_mod] at hmod
    simp only [Nat.add_mul_div_right _ _ hp, Nat.div_eq_of_lt (Nat.mod_lt router hp),
      Nat.zero_add] at hdiv
    exact ⟨hmod ▸ hsplit, hdiv⟩
  · rintro ⟨hr, hidiv⟩
    have hmod : router % p.numRouters = p.slot (p.groupId router) g' % p.numRouters := by omega
    rw [hmod, hidiv, Nat.mul_comm]
    exact Nat.mod_add_div _ _

end Positive

/-- The number of a channel to a group is one that the router has. -/
theorem slot_div_lt (hne : g ≠ g') (hg : g < p.numGroups) (hg' : g' < p.numGroups) :
    p.slot g g' / p.numRouters < p.numGlobalChannels :=
  Nat.div_lt_of_lt_mul (slot_lt hne hg hg')

/-- **The wiring is a matching.**  Every global channel leads to a router of another group, from
which exactly one channel leads back; and of any two groups, in both of them exactly one channel
leads to the other: that of the router `getRouterFromGroupID` whose number the slot gives. -/
theorem wiring_matched (p : Param) (hp : 0 < p.numRouters) (hint : p.totalRouters < 2 ^ 31) :
    (∀ router < p.totalRouters, ∀ i < p.numGlobalChannels,
      p.globalChannel router i < p.totalRouters ∧ p.globalChannel router i < 2 ^ 31 ∧
      p.groupId (p.globalChannel router i) ≠ p.groupId router ∧
      ∃! j, j < p.numGlobalChannels ∧ p.globalChannel (p.globalChannel router i) j = router) ∧
    ∀ g < p.numGroups, ∀ g' < p.numGroups, g ≠ g' →
      p.getRouterFromGroupID g' g < p.totalRouters ∧
      ∀ router i, (router < p.totalRouters ∧ i < p.numGlobalChannels ∧ p.groupId router = g ∧
          p.groupId (p.globalChannel router i) = g') ↔
        router = p.getRouterFromGroupID g' g ∧ i = p.slot g g' / p.numRouters := by
  have hlink : ∀ g < p.numGroups, ∀ g' < p.numGroups, g ≠ g' →
      p.getRouterFromGroupID g' g < p.totalRouters := by
    intro g hg g' _ _
    rwa [← groupId_lt hp, groupId_getRouterFromGroupID hp]
  refine ⟨fun router hrouter i hi => ?_, fun g hg g' hg' hne => ⟨hlink g hg g' hg' hne, ?_⟩⟩
  · have hg := (groupId_lt hp).2 hrouter
    have hlt := channel_lt hp router hi
    have hg' := target_lt (g := p.groupId router) hlt
    have hne := target_ne (g := p.groupId router) hlt
    rw [← groupId_globalChannel hp] at hg' hne
    have hchannel := (groupId_lt hp).1 hg'
    refine ⟨hchannel, Nat.lt_trans hchannel hint, hne, ?_⟩
    -- the router is the one of its group that connects to the group at the other end
    have hrouter' := ((groupId_globalChannel_eq_iff hp hi hne.symm hg').1 rfl).1
    have hback : ∀ j, p.globalChannel (p.globalChannel router i) j = router ↔
        p.groupId (p.globalChannel (p.globalChannel router i) j) = p.groupId router := by
      refine fun j => ⟨congrArg p.groupId, fun heq => ?_⟩
      rw [groupId_globalChannel hp] at heq
      rw [globalChannel_eq, heq]
      exact hrouter'.symm
    have hiff : ∀ j < p.numGlobalChannels,
        (p.globalChannel (p.globalChannel router i) j = router ↔
          j = p.slot (p.groupId (p.globalChannel router i)) (p.groupId router) / p.numRouters) := by
      intro j hj
      rw [hback, groupId_globalChannel_eq_iff hp hj hne hg]
      refine and_iff_right ?_
      rw [groupId_globalChannel hp, globalChannel_eq]
    have hj := slot_div_lt hne hg' hg
    exact ⟨_, ⟨hj, (hiff _ hj).2 rfl⟩, fun j h => (hiff j h.1).1 h.2⟩
  · have hr := groupId_getRouterFromGroupID hp g' g
    have hlt := hlink g hg g' hg' hne
    have hi := slot_div_lt hne hg hg'
    refine fun router i => ⟨?_, ?_⟩
    · rintro ⟨-, hi', rfl, hto⟩
      exact (groupId_globalChannel_eq_iff hp hi' hne hg').1 hto
    · rintro ⟨rfl, rfl⟩
      refine ⟨hlt, hi, hr, (groupId_globalChannel_eq_iff hp hi (by rwa [hr]) hg').2 ?_⟩
      rw [hr]
      exact ⟨rfl, rfl⟩

/-- A small dragonfly: nine groups of four routers. -/
def nineGroups : Param := ⟨4, 9⟩

theorem wiring_matched_nineGroups :
    (∃! j, j < nineGroups.numGlobalChannels ∧
      nineGroups.globalChannel (nineGroups.globalChannel 0 0) j = 0) ∧
    nineGroups.groupId (nineGroups.globalChannel (nineGroups.getRouterFromGroupID 7 2) 1) = 7 := by
  obtain ⟨hback, hlink⟩ := wiring_matched nineGroups (by decide) (by decide)
  refine ⟨(hback 0 (by decide) 0 (by decide)).2.2.2, ?_⟩
  exact (((hlink 2 (by decide) 7 (by decide) (by decide)).2 _ _).2 ⟨rfl, by decide⟩).2.2.2

end Param

end CodesSim.Dragonfly
