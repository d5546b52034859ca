import OpenManet.Core.RecvMessages

/-!
# The Callbacks

The callbacks `AODV.c` registers with the packet filter, the hello thread, and
the two timer threads of `routing_table.c`.

`forwardedMessages` has three ends. A packet with a valid route and a valid next
hop is passed and refreshes the timers; a valid route over an invalid next hop
is a link break, which takes down the destinations listed under the next hop;
anything else is answered with an error about the destination alone.

In the link break the count is raised before it is used as an index, so the pair
of the first listed destination goes to words four and five and words two and
three keep what the array contained.

Its mutexes are as the source has them: the link break locks the next hop's
entry, which it holds already, a second time, and the error at the end unlocks
the destination's entry and not the next hop's.

## Main definitions

* `ControlMessage`: A message as the handler it is dispatched to reads it.
* `incomingControlMessage`, `incomingDataMessage`: Packets for this node.
* `outgoingMessage`, `forwardedMessages`: Packets to be routed.
* `HandlerCall`: A call of one of the handlers.
* `helloInterval`: The hello thread, from its test to its sleep or from there on.
* `expirationFunc`, `rreqIdFunc`: The timer threads, from waking up on.
-/

namespace OpenManet

def incomingDataMessage (env : Env) (src dest : U32) : Handler :=
  .read fun n =>
  if dest = n.ipAddress ∧ (n.getRoutingEntry src).isSome then
    locked src (.write src (.timer env (toU32 activeRouteTimeout))) acceptPacket
  else acceptPacket

/-- A message of the protocol, as the handler it is dispatched to reads it. The
    words behind the header of a RERR are those found from there on in memory. -/
inductive ControlMessage where
  | rreq (m : RreqHeader)
  | rrep (m : RrepHeader)
  | rerr (m : RerrHeader) (destPairs : Nat → U32)

/-- The dispatch on the message type. A node does not listen to itself. -/
def incomingControlMessage (env : Env) (src : U32) (message : ControlMessage) : Handler :=
  .read fun n =>
  if src = n.ipAddress then acceptPacket
  else
    match message with
    | .rreq m => recvRreq env src m
    | .rrep m => recvRrep env src m
    | .rerr m destPairs => recvRerr env src m destPairs

/-! ### Outgoing packets -/

/-- The route of an outgoing packet is valid with a valid number. -/
def RoutingEntry.isActive (e : RoutingEntry) : Bool :=
  e.status = .routeValid && e.seqValid = .seqValid

/-- There is an entry for the address and its route is valid. -/
def Node.isValid (ip : U32) (n : Node) : Bool :=
  (n.getRoutingEntry ip).any fun e => e.status = .routeValid

/-- `dest_ip` read through a pointer to the entry for an address. -/
def Node.destIpOf (ip : U32) (n : Node) : U32 :=
  match n.getRoutingEntry ip with
  | none => 0
  | some e => e.destIp

def outgoingMessage (env : Env) (dest : U32) : Handler :=
  .read fun n =>
  if dest = n.broadcastIp ∨ dest = n.ipAddress then acceptPacket
  else
    match n.getRoutingEntry dest with
    | none => sendRreq env dest
    | some destination =>
      if destination.isActive ∧ destination.nextHop = destination.destIp then
        -- Only the route to a neighbour is kept alive by what is sent.
        locked dest (.write dest (.timer env (toU32 activeRouteTimeout))) acceptPacket
      else if destination.isActive ∧ n.isValid destination.nextHop then acceptPacket
      else if destination.isActive then
        -- The next hop is gone: the route is taken down and searched for again.
        locked dest (.outgoingBreak env dest) (sendRreq env dest)
      else sendRreq env dest

/-! ### Forwarded packets -/

/-- The error about a packet without a route. The second word of the pair is the
    destination's address where its number is meant. -/
def forwardedError (dest destSeq : U32) : Handler :=
  match generateRerrMessage 0 1 [dest, destSeq] with
  | none => dropPacket
  | some (header, words) => .op (.sendBroadcast (.rerr header words)) fun _ _ => dropPacket

/-- The locals of the link break. -/
structure BreakLocals where
  target : RerrTarget
  numDests : U32
  pairs : Nat → U32

/-- A listed destination with precursors is taken into the RERR. -/
def BreakLocals.collect (l : BreakLocals) (e : RoutingEntry) : BreakLocals :=
  if e.precursorList ≠ [] then
    { target := l.target.add e.precursorList
      numDests := l.numDests + 1
      pairs := writePair l.pairs (2 * (l.numDests + 1).toNat) e.destIp (e.destSeq + 1) }
  else l

/-- The words a send of `2 * numDests` of them takes from a RERR that holds the
    given ones: beyond these it reads on in memory. -/
def sentWords (block : Nat → Byte) (words : List U32) (numDests : U32) : List U32 :=
  (List.range (2 * numDests.toNat)).map fun i => words.getD i (wordAt block (i + 1))

/-- The packet a link break sends. The count is narrowed to eight bits for the
    generator but not for the length. -/
def BreakLocals.packet (env : Env) (l : BreakLocals) : Packet :=
  match generateRerrMessageBuff 0 (l.numDests.setWidth 8) l.pairs with
  | none => .null (4 + 8 * l.numDests.toNat)
  | some (header, words) => .rerr header (sentWords (env.memory .rerr) words l.numDests)

/-- The loop over the destinations listed under the next hop, and the rest of the
    link break. -/
def breakLoop (env : Env) (dest : U32) : List U32 → BreakLocals → Handler
  | [], l =>
    .op (l.target.send (l.packet env)) fun _ _ => .unlock (slotOf dest) dropPacket
  | unreachable :: rest, l =>
    .read fun n =>
    if (n.getRoutingEntry unreachable).isSome then
      .lock (slotOf unreachable) <|
      .read fun n =>
      let l :=
        match n.getRoutingEntry unreachable with
        | none => l
        | some e => l.collect e
      .op (.linkBreak env unreachable) fun _ _ =>
      .unlock (slotOf unreachable) <|
      breakLoop env dest rest l
    else breakLoop env dest rest l

/-- The locals before the loop: the next hop is the first pair. -/
def breakStart (env : Env) (destHop : RoutingEntry) : BreakLocals :=
  { target := { singleRerr := 0, broadcastRerr := false }
    numDests := 1
    pairs := writePair (wordAt (env.memory .rerrPairs)) 0 destHop.destIp destHop.destSeq }

/-- The link break, entered with the destination's mutex held and the next hop's
    with it. -/
def forwardedBreak (env : Env) (dest hopIp : U32) : Handler :=
  .lock (slotOf hopIp) <|
  .read fun n =>
  match n.getRoutingEntry hopIp with
  | none => dropPacket
  | some destHop =>
    .op (.write hopIp (.timer env (toU32 deletePeriod))) fun _ _ =>
    .unlock (slotOf hopIp) <|
    breakLoop env dest destHop.nextHopFor (breakStart env destHop)

/-- The packet is passed on and keeps its routes alive. -/
def forwardedPass (env : Env) (src dest : U32) (srcEntry : Bool) : Handler :=
  .op (.write dest (.timer env (toU32 activeRouteTimeout))) fun _ _ =>
  if srcEntry then
    locked src (.write src (.timer env (toU32 activeRouteTimeout)))
      (.unlock (slotOf dest) acceptPacket)
  else .unlock (slotOf dest) acceptPacket

/-- What is done with the entries of the destination and the next hop at hand;
    `other` says that they are two entries and both mutexes are held. -/
def forwardedOver (env : Env) (src dest hopIp : U32) (srcEntry other : Bool) : Handler :=
  .read fun n =>
  if n.isValid dest ∧ n.isValid hopIp then
    if other then .unlock (slotOf hopIp) (forwardedPass env src dest srcEntry)
    else forwardedPass env src dest srcEntry
  else if n.isValid dest then forwardedBreak env dest hopIp
  -- The mutex of the next hop, if it was taken, is not given back here.
  else .unlock (slotOf dest) (forwardedError dest (n.destIpOf dest))

def forwardedMessages (env : Env) (src dest : U32) : Handler :=
  .read fun n =>
  let srcEntry := (n.getRoutingEntry src).isSome
  if (n.getRoutingEntry dest).isSome then
    .lock (slotOf dest) <|
    .read fun n =>
    match n.getRoutingEntry dest with
    | none => .unlock (slotOf dest) (forwardedError dest 0)
    | some destination =>
      match n.getRoutingEntry destination.nextHop with
      | none => .unlock (slotOf dest) (forwardedError dest destination.destIp)
      | some destHop =>
        if destHop.destIp ≠ destination.destIp then
          -- The next hop is another entry, with a mutex of its own.
          .lock (slotOf destination.nextHop)
            (forwardedOver env src dest destination.nextHop srcEntry true)
        else forwardedOver env src dest destination.nextHop srcEntry false
  else forwardedError dest 0

/-! ### The calls of a handler -/

/-- A call of one of the handlers, with its arguments. -/
inductive HandlerCall where
  | recvRreq (env : Env) (senderIp : U32) (m : RreqHeader)
  | recvRrep (env : Env) (senderIp : U32) (m : RrepHeader)
  | recvRerr (env : Env) (senderIp : U32) (header : RerrHeader) (destPairs : Nat → U32)
  | incomingDataMessage (env : Env) (src dest : U32)
  | outgoingMessage (env : Env) (dest : U32)
  | forwardedMessages (env : Env) (src dest : U32)

def HandlerCall.handler : HandlerCall → Handler
  | recvRreq env senderIp m => OpenManet.recvRreq env senderIp m
  | recvRrep env senderIp m => OpenManet.recvRrep env senderIp m
  | recvRerr env senderIp header destPairs => OpenManet.recvRerr env senderIp header destPairs
  | incomingDataMessage env src dest => OpenManet.incomingDataMessage env src dest
  | outgoingMessage env dest => OpenManet.outgoingMessage env dest
  | forwardedMessages env src dest => OpenManet.forwardedMessages env src dest

/-! ### Threads -/

/-- The hello thread up to its next test or sleep. It spins while no route is active, and
    does not look again when it wakes up to send. -/
def helloInterval : Handler :=
  .read fun n =>
  match n.helloStage with
  | .spinning =>
    if n.activeRoutes = 0 then .ret .waits
    else .op (.moveHello .sleeping) fun _ _ => .ret .waits
  | .sleeping =>
    .op (.sendBroadcast (.rrep (generateRrepMessage n.helloBlock 0 n.ipAddress n.sequenceNum 0
      (toU32 (allowedHelloLoss * helloIntervalMs))) [])) fun _ _ =>
    .op (.moveHello .spinning) fun _ _ => .ret .waits

/-- The timer of an entry, if it is running, has run out. An invalid entry is
    removed; a valid one becomes invalid and its timer starts over. -/
def expirationFunc (env : Env) (ip : U32) : Handler :=
  .read fun n =>
  if (n.getRoutingEntry ip).any (·.expirationThread) then
    .lock (slotOf ip) <|
    .read fun n =>
    if n.isValid ip then
      .op (.expireRoute env ip) fun _ _ => .unlock (slotOf ip) (.ret .waits)
    -- The entry is removed and freed when its mutex has been given back.
    else .unlock (slotOf ip) (.op (.removeEntry ip) fun _ _ => .ret .waits)
  else .ret .waits

/-- The request id of an entry has been remembered long enough. -/
def rreqIdFunc (ip : U32) : Handler :=
  .read fun n =>
  if (n.getRoutingEntry ip).any (·.rreqIdThread) then
    locked ip (.write ip .forgetRreqId) (.ret .waits)
  else .ret .waits

end OpenManet
