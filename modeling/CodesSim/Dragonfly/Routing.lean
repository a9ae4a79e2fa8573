import CodesSim.Dragonfly.Wiring

/-!
# The routing of a dragonfly

`router_packet_receive` chooses the port and the virtual channel of a packet.  `get_next_stop`
sends it to the router of its group that connects to the next group, to the other end of the link,
or, in the group of its destination, to the router of the destination; on a non-minimal path the
next group of a packet in the group it comes from is the intermediate group that was drawn at its
first router.  `do_adaptive_routing` compares the occupancy of the ports of both paths.

Whatever the occupancies and the draws are, the channels that a packet takes come in the order
local 0, global 0, local 1, global 1, local 2 (`OnWay`), so that it has at most five hops and no
cycle of channels waits for itself.  The progressive algorithm asks again at the second router, but
there both paths have the same port: it never changes its mind.
-/

namespace CodesSim.Dragonfly

/-- `enum last_hop`. -/
inductive LastHop
  | global
  | local
  | terminal
  deriving DecidableEq

/-- `MINIMAL` and `NON_MINIMAL` of `enum ROUTING_ALGO`, as a `path_type`. -/
inductive Path
  | minimal
  | nonMinimal
  deriving DecidableEq

/-- `enum ROUTING_ALGO`. -/
inductive RoutingAlgo
  | path (path : Path)
  | adaptive
  | progAdaptive
  deriving DecidableEq

/-- The part of `terminal_message` that the routing reads and writes; -1 is `none`. -/
structure Msg where
  destTerminal : ℕ
  originRouterId : ℕ
  lastHop : LastHop
  pathType : Option Path
  intmGroupId : Option ℕ
  (myLHop myGHop myNHop : ℕ)

/-- A `next_stop`: the destination terminal, or a router. -/
inductive Stop
  | terminal
  | router (id : ℕ)

/-- The part of `router_state` that `do_adaptive_routing` reads. -/
structure Load where
  vcOccupancy : ℕ → ℕ → ℤ
  queuedCount : ℕ → ℤ

namespace Param

variable (p : Param)

/-- `get_num_hops`. -/
def getNumHops (localRouterId destRouterId : ℕ) : ℕ :=
  let localGrpId := p.groupId localRouterId
  let destGroupId := p.groupId destRouterId
  if localRouterId = destRouterId then 1
  else if localGrpId = destGroupId then 2
  else
    let srcConnectingRouter := p.getRouterFromGroupID destGroupId localGrpId
    let destConnectingRouter := p.getRouterFromGroupID localGrpId destGroupId
    4 - (if srcConnectingRouter = localRouterId then 1 else 0)
      - (if destConnectingRouter = destRouterId then 1 else 0)

/-- The other end of the link to a group, as `get_next_stop` computes it. -/
def farEnd (groupId destGroupId : ℕ) : ℕ :=
  let myPos := if groupId = p.numGroups - 1 then destGroupId % p.numRouters
    else groupId % p.numRouters
  destGroupId * p.numRouters + myPos

/-- The message with the intermediate group that `get_next_stop` writes into it. -/
def withIntm (msg : Msg) (path : Path) (intmId : ℕ) : Msg :=
  if msg.lastHop = .terminal ∧ path = .nonMinimal then { msg with intmGroupId := some intmId }
  else msg

/-- The group that `get_next_stop` decides on. -/
def destGroup (router : ℕ) (msg : Msg) (path : Path) (destRouterId : ℕ) : ℕ :=
  match msg.intmGroupId with
  | some intm =>
    if path = .nonMinimal ∧ p.groupId router = p.groupId msg.originRouterId then intm
    else p.groupId destRouterId
  | none => p.groupId destRouterId

/-- `get_next_stop`. -/
def getNextStop (router : ℕ) (msg : Msg) (path : Path) (destRouterId intmId : ℕ) : Stop × Msg :=
  if destRouterId = router then (.terminal, msg)
  else if p.groupId router = p.groupId destRouterId then (.router destRouterId, msg)
  else
    let msg := withIntm msg path intmId
    let destGroupId := p.destGroup router msg path destRouterId
    let destLp := p.getRouterFromGroupID destGroupId (p.groupId router)
    (.router (if destLp = router then p.farEnd (p.groupId router) destGroupId else destLp), msg)

/-- `get_output_port`. -/
def getOutputPort (router : ℕ) (msg : Msg) : Stop → ℕ
  | .terminal => p.numRouters + p.numGlobalChannels + msg.destTerminal % p.numCn
  | .router id =>
    let intmGrpId := p.groupId id
    if intmGrpId ≠ p.groupId router then
      let targetGrp := if intmGrpId = p.numGroups - 1 then p.groupId router else intmGrpId
      p.numRouters + targetGrp / p.numRouters
    else id % p.numRouters

/-- `minimal_port_count` and `nonmin_port_count`. -/
def portCount (s : Load) (port : ℕ) : ℤ :=
  s.vcOccupancy port 0 + s.vcOccupancy port 1 + s.vcOccupancy port 2 + s.queuedCount port

/-- `num_nonmin_hops`. -/
def numNonminHops (router : ℕ) (msg : Msg) (destRouterId : ℕ) : ℕ :=
  match msg.intmGroupId with
  | some intm =>
    let intmRouterId := p.getRouterFromGroupID intm (p.groupId router)
    p.getNumHops router intmRouterId + p.getNumHops intmRouterId destRouterId
  | none => 6

/-- `do_adaptive_routing`; `none` is the failed assertion, or the division by zero of the average
that is not used. -/
def doAdaptiveRouting (s : Load) (router : ℕ) (msg : Msg) (destRouterId intmId : ℕ) :
    Option (Stop × Msg) :=
  let minimal := p.getNextStop router msg .minimal destRouterId intmId
  let nonmin := p.getNextStop router minimal.2 .nonMinimal destRouterId intmId
  if 6 < p.numNonminHops router nonmin.2 destRouterId ∨ p.radix = 1 then none
  else if portCount s (p.getOutputPort router msg minimal.1) ≤
      portCount s (p.getOutputPort router msg nonmin.1) then
    some (minimal.1, { nonmin.2 with pathType := some .minimal, intmGroupId := none })
  else some (nonmin.1, { nonmin.2 with pathType := some .nonMinimal })

/-- The path without a choice: that of the algorithm, or of the message. -/
def givenPath (routing : Option RoutingAlgo) (msg : Msg) : Option Path :=
  match routing with
  | some (.path path) => some path
  | _ => msg.pathType

/-- How `router_packet_receive` finds the next stop; a `routing` of -1 is `none`. -/
def chooseStop (routing : Option RoutingAlgo) (s : Load) (router : ℕ) (msg : Msg)
    (destRouterId intmId : ℕ) : Option (Stop × Msg) :=
  if routing = some .progAdaptive ∧ msg.pathType ≠ some .nonMinimal ∧
      p.groupId router = p.groupId msg.originRouterId then
    p.doAdaptiveRouting s router msg destRouterId intmId
  else if msg.lastHop = .terminal ∧ routing = some .adaptive then
    p.doAdaptiveRouting s router msg destRouterId intmId
  else
    (givenPath routing msg).map fun path =>
      p.getNextStop router { msg with pathType := some path } path destRouterId intmId

/-- The virtual channel on a port. -/
def outputChan (msg : Msg) (port : ℕ) : ℕ :=
  if port < p.numRouters then
    if msg.myGHop = 1 then 1 else if msg.myGHop = 2 then 2 else msg.myLHop
  else if port < p.numRouters + p.numGlobalChannels then msg.myGHop
  else 0

/-- The message with the hop counted. -/
def countHop (msg : Msg) (port : ℕ) : Msg :=
  { msg with
    myLHop := msg.myLHop + if port < p.numRouters then 1 else 0
    myGHop := msg.myGHop +
      if p.numRouters ≤ port ∧ port < p.numRouters + p.numGlobalChannels then 1 else 0
    myNHop := msg.myNHop + 1 }

/-- The routing of `router_packet_receive`, with the draw of the intermediate group: the next stop,
the port, the channel and the message that is queued. -/
def route (routing : Option RoutingAlgo) (s : Load) (router : ℕ) (msg : Msg) (draw : ℕ) :
    Option (Stop × ℕ × ℕ × Msg) := do
  let destRouterId := msg.destTerminal / p.numCn
  let intmId := (p.groupId router + draw) % p.numRealGroups
  let (stop, chunk) ← p.chooseStop routing s router msg destRouterId intmId
  let port := p.getOutputPort router chunk stop
  let chan := p.outputChan msg port
  guard (chan < 3 ∧ port < p.radix)
  some (stop, port, chan, p.countHop chunk port)

/-- `last_hop` as `router_packet_send` sets it. -/
def sent (msg : Msg) (port : ℕ) : Msg :=
  { msg with
    lastHop := if p.numRouters ≤ port ∧ port < p.numRouters + p.numGlobalChannels then .global
      else .local }

/-- A packet as `packet_generate` and `packet_send` send it to the router of its terminal. -/
def injected (terminal destTerminal : ℕ) : Msg where
  destTerminal
  originRouterId := terminal / p.numCn
  lastHop := .terminal
  pathType := none
  intmGroupId := none
  myLHop := 0
  myGHop := 0
  myNHop := 0

end Param

end CodesSim.Dragonfly
