import OpenManet.Core.SendMessages

/-!
# Receiving Messages

`recv_messages.c`: the handlers of the three messages, each a program over the
operations of a node.

## Main definitions

* `isDuplicate`: The duplicate check of `recv_rreq`.
* `answersFromTable`, `forwardedRreq`: Whether a node answers, and what it
  forwards if it does not.
* `recvRreq`, `recvRrep`, `recvRerr`: The three handlers.
-/

namespace OpenManet

/-- The previous-hop section of `recv_rreq` and `recv_rrep`, with the address
    listed under the sender. -/
def previousHopSection (env : Env) (senderIp listed : U32) (next : Handler) : Handler :=
  .op (.create env senderIp 0 .seqInvalid senderIp 0 (toU32 activeRouteTimeout)) fun before _ =>
  locked senderIp (.previousHop env senderIp listed (before.isNew senderIp)) next

/-! ### Route requests -/

/-- The duplicate check: a request already seen is dropped, except that the
    destination takes a copy with a smaller hop count. -/
def isDuplicate (ipAddress : U32) (m : RreqHeader) (originator : RoutingEntry) : Bool :=
  if originator.rreqId = m.rreqId ∧ ipAddress ≠ m.destIp then true
  -- The stored count was taken after an increment and the one in the message was not.
  else if originator.rreqId = m.rreqId ∧ ipAddress = m.destIp ∧
      originator.hopCount ≤ m.hopCount.setWidth 32 then true
  else false

/-- The stored number is preferred to the one in the request. -/
def knowsFresher (m : RreqHeader) (destination : RoutingEntry) : Bool :=
  m.flags &&& rreqUnknown ≠ 0 || seqCompare m.destSeq destination.destSeq < 0

/-- The node answers the request from its table. -/
def answersFromTable (m : RreqHeader) (destination : RoutingEntry) : Bool :=
  m.flags &&& rreqDestOnly = 0 && destination.status = .routeValid &&
    destination.seqValid = .seqValid && knowsFresher m destination

/-- The request as it is broadcast again. -/
def forwardedRreq (m : RreqHeader) (destination : Option RoutingEntry) : RreqHeader :=
  -- The TTL is lowered whatever the table holds.
  let m := { m with ttl := m.ttl - 1 }
  match destination with
  | none => m
  | some e =>
    if e.seqValid = .seqValid ∧ knowsFresher m e then { m with destSeq := e.destSeq } else m

/-- What a node that is not the destination does with a new request. -/
def answerOrForward (env : Env) (senderIp : U32) (m : RreqHeader) : Handler :=
  .read fun n =>
  let destination := n.getRoutingEntry m.destIp
  if destination.any (answersFromTable m) then sendRrepIntermediate env m senderIp acceptPacket
  -- The last node of the ring does not pass the request on.
  else if m.ttl ≤ 1 then acceptPacket
  else .op (.sendBroadcast (.rreq (forwardedRreq m destination))) fun _ _ => acceptPacket

/-- What follows the reverse route, whose mutex is still held. -/
def afterReverseRoute (env : Env) (senderIp : U32) (m : RreqHeader) (n : Node) : Handler :=
  if n.ipAddress = m.destIp then
    -- The reverse route is counted here, and by other nodes when the reply comes back.
    .op (.activate m.srcIp) fun _ _ =>
    .unlock (slotOf m.srcIp) <|
    sendRrepDestination env m senderIp acceptPacket
  else
    .unlock (slotOf m.srcIp) <|
    answerOrForward env senderIp m

/-- The reverse route and everything after it; the hop count of `m` is
    incremented already. -/
def recvNewRreq (env : Env) (senderIp : U32) (m : RreqHeader) : Handler :=
  .op (.create env m.srcIp m.srcSeq .seqValid senderIp (m.hopCount.setWidth 32) 0) fun before _ =>
  .lock (slotOf m.srcIp) <|
  .op (.reverseRoute env senderIp m (before.isNew m.srcIp)) fun _ n =>
  afterReverseRoute env senderIp m n

def recvRreq (env : Env) (senderIp : U32) (m : RreqHeader) : Handler :=
  previousHopSection env senderIp m.srcIp <|
  .read fun n =>
  if m.srcIp = n.ipAddress then acceptPacket
  -- A copy is dropped only here, when the previous hop has been written already.
  else if (n.getRoutingEntry m.srcIp).any (isDuplicate n.ipAddress m) then acceptPacket
  else recvNewRreq env senderIp (incrementHopRreq m)

/-! ### Route replies -/

/-- What `recv_rrep` does with a hello; the hop count of `m` is incremented
    already. -/
def recvHello (env : Env) (senderIp : U32) (m : RrepHeader) : Handler :=
  .op (.create env m.destIp m.destSeq .seqValid senderIp (m.hopCount.setWidth 32) m.lifetime)
    fun before _ =>
  locked m.destIp (.hello env m (before.isNew m.destIp)) acceptPacket

/-- The reply is passed on along the reverse route. The originator's mutex is
    taken while the destination's is held. -/
def forwardRrep (m : RrepHeader) (next : Handler) : Handler :=
  .read fun n =>
  if (n.getRoutingEntry m.srcIp).isSome then
    .lock (slotOf m.srcIp) <|
    .op (.activate m.srcIp) fun _ n =>
    -- Each end is told through the other's next hop.
    .op (.write m.srcIp (.precursor (n.nextHopOf m.destIp))) fun _ _ =>
    .op (.write m.destIp (.precursor (n.nextHopOf m.srcIp))) fun _ _ =>
    .op (.sendUnicast (n.nextHopOf m.srcIp) (.rrep m [])) fun _ _ =>
    .unlock (slotOf m.srcIp) next
  else next

/-- What follows the forward route, whose mutex is still held. -/
def afterForwardRoute (m : RrepHeader) : Handler :=
  .op (.activate m.destIp) fun _ n =>
  if n.ipAddress ≠ m.srcIp then forwardRrep m (.unlock (slotOf m.destIp) acceptPacket)
  else .unlock (slotOf m.destIp) acceptPacket

/-- The forward route and everything after it; the hop count of `m` is
    incremented already. -/
def installForwardRoute (env : Env) (senderIp : U32) (m : RrepHeader) : Handler :=
  .op (.create env m.destIp m.destSeq .seqValid senderIp (m.hopCount.setWidth 32) m.lifetime)
    fun before _ =>
  .lock (slotOf m.destIp) <|
  .op (.forwardRoute env senderIp m (before.isNew m.destIp)) fun _ _ =>
  afterForwardRoute m

/-- The first section: the originator of the search publishes that it is over. -/
def publishFound (m : RrepHeader) (next : Handler) : Handler :=
  .read fun n =>
  if n.ipAddress = m.srcIp ∧ (n.getRoutingEntry m.destIp).isSome then
    locked m.destIp (.searchFound m.destIp) next
  else next

def recvRrep (env : Env) (senderIp : U32) (m : RrepHeader) : Handler :=
  publishFound m <|
  -- A hello names no originator.
  if m.srcIp = 0 then recvHello env senderIp (incrementHopRrep m)
  else
    previousHopSection env senderIp m.destIp <|
    installForwardRoute env senderIp (incrementHopRrep m)

/-! ### Route errors -/

/-- Where a RERR goes: the one precursor seen so far, zero for none, and whether
    it has become a broadcast. -/
structure RerrTarget where
  singleRerr : U32
  broadcastRerr : Bool
  deriving DecidableEq, Repr

/-- Taking a destination with these precursors into the RERR. -/
def RerrTarget.add (target : RerrTarget) (precursors : List U32) : RerrTarget :=
  match precursors with
  | [single] =>
    if target.singleRerr = 0 then { target with singleRerr := single }
    -- A second destination makes it a broadcast, also with the same precursor.
    else { target with broadcastRerr := true }
  | _ => { target with broadcastRerr := true }

/-- Sends the packet to the single precursor or to everybody. -/
def RerrTarget.send (target : RerrTarget) (packet : Packet) : Op :=
  if target.singleRerr ≠ 0 ∧ target.broadcastRerr = false then
    .sendUnicast target.singleRerr packet
  else .sendBroadcast packet

/-- The locals of `recv_rerr`. -/
structure RerrLocals where
  target : RerrTarget
  /-- Twice the number of pairs collected, in eight bits. -/
  numDests : Byte
  pairs : Nat → U32

/-- Two words written at an index of an array. -/
def writePair (pairs : Nat → U32) (index : Nat) (destIp destSeq : U32) : Nat → U32 :=
  fun i => if i = index then destIp else if i = index + 1 then destSeq else pairs i

/-- An entry with precursors is taken into the RERR. -/
def RerrLocals.collect (l : RerrLocals) (e : RoutingEntry) (destSeq : U32) : RerrLocals :=
  if e.precursorList ≠ [] then
    { target := l.target.add e.precursorList
      numDests := l.numDests + 2
      pairs := writePair l.pairs l.numDests.toNat e.destIp destSeq }
  else l

/-- The pairs a RERR announces, read from the words behind its header. -/
def rerrPairs (destCount : Byte) (destPairs : Nat → U32) : List (U32 × U32) :=
  (List.range destCount.toNat).map fun i => (destPairs (2 * i), destPairs (2 * i + 1))

/-- The packet `recv_rerr` sends. -/
def RerrLocals.packet (l : RerrLocals) : Packet :=
  match generateRerrMessageBuff 0 (l.numDests / 2) l.pairs with
  | none => .null (4 + 4 * l.numDests.toNat)
  | some (header, words) => .rerr header words

/-- The entry is one whose route the sender of a RERR has lost. -/
def RoutingEntry.goesThrough (senderIp : U32) (e : RoutingEntry) : Bool :=
  e.nextHop = senderIp && e.status = .routeValid

/-- The loop of `recv_rerr` over the pairs, and the send after it. -/
def rerrLoop (env : Env) (senderIp : U32) : List (U32 × U32) → RerrLocals → Handler
  | [], l =>
    if l.numDests = 0 then acceptPacket
    else .op (l.target.send l.packet) fun _ _ => acceptPacket
  | pair :: rest, l =>
    .read fun n =>
    match n.getRoutingEntry pair.1 with
    | none => rerrLoop env senderIp rest l
    | some e =>
      if e.goesThrough senderIp then
        -- The mutex is taken after the test, which is not made again.
        .lock (slotOf pair.1) <|
        .read fun n =>
        let l :=
          match n.getRoutingEntry pair.1 with
          | none => l
          | some e => l.collect e pair.2
        .op (.breakRoute env pair.1 pair.2) fun _ _ =>
        .unlock (slotOf pair.1) <|
        rerrLoop env senderIp rest l
      else rerrLoop env senderIp rest l

def recvRerr (env : Env) (senderIp : U32) (header : RerrHeader) (destPairs : Nat → U32) : Handler :=
  rerrLoop env senderIp (rerrPairs header.destCount destPairs)
    { target := { singleRerr := 0, broadcastRerr := false }
      numDests := 0
      pairs := wordAt (env.memory .rerrPairs) }

end OpenManet
