import OpenManet.Core.Operations
import OpenManet.Library.Program

/-!
# Sending Messages

`send_messages.c`: the two answers to a route request, the start of a search,
the thread that runs it and the wait for its outcome.

A handler is a program over the operations of a node, with the mutex of an entry
named by the entry's slot. The functions here that return nothing in the source
take the program that follows them.

`sendRreq` is the call up to its waiting loop; what follows the loop is
`waiterStep`, cut at each access to `rreq_search` because other threads run in
between. The search thread runs from one sleep to the next.

## Main definitions

* `Handler`: The programs of a node.
* `sendRrepDestination`: The answer of the destination itself.
* `sendRrepIntermediate`: The answer from a table, with the gratuitous RREP.
* `sendRreq`, `waiterStep`: The search for a route as its caller sees it.
* `searchThreadStep`: The search for a route as its thread runs it.
-/

namespace OpenManet

/-- How an execution ends: with a verdict, or in the waiting loop of a search. -/
inductive Outcome where
  | returned (verdict : Verdict)
  | waits
  deriving DecidableEq, Repr

abbrev Handler := Prog Node Op (Fin 256) Outcome

/-- `return PACKET_ACCEPT`, which is also what `LOGGING` stands for. -/
def acceptPacket : Handler := .ret (.returned .packetAccept)

/-- `return PACKET_DROP`. -/
def dropPacket : Handler := .ret (.returned .packetDrop)

/-- Holds the mutex of the entry for an address around one operation. -/
def locked (ip : U32) (o : Op) (next : Handler) : Handler :=
  .lock (slotOf ip) (.op o fun _ _ => .unlock (slotOf ip) next)

/-- The number the destination answers with: one more than its own, or the
    number in the request where that is not the older of the two. -/
def nextOwnSeq (message : RreqHeader) (sequenceNum : U32) : U32 :=
  let seq := sequenceNum + 1
  if message.flags &&& rreqUnknown = 0 then
    if seqCompare message.destSeq seq < 0 then seq else message.destSeq
  else seq

def sendRrepDestination (env : Env) (message : RreqHeader) (senderIp : U32) (next : Handler) :
    Handler :=
  .read fun n =>
  let seq := nextOwnSeq message n.sequenceNum
  -- The number is read and written in two critical sections.
  .op (.writeSequenceNum seq) fun _ n =>
  let rrep := generateRrepMessage (env.memory .rrep) 0 n.ipAddress seq message.srcIp
    (toU32 myRouteTimeout)
  .op (.sendUnicast senderIp (.rrep rrep [])) fun _ _ => next

/-- The bytes a send of `sizeof(rreq_header)` takes from behind a RREP. -/
def beyondRrep (block : Nat → Byte) : List Byte := [block 20, block 21, block 22, block 23]

/-- The RREP about the stored route, and the gratuitous one for its next hop. -/
def intermediateRrep (env : Env) (message : RreqHeader) (destEntry : RoutingEntry) : Packet :=
  let rrep := generateRrepMessage (env.memory .rrep) 0 message.destIp destEntry.destSeq
    message.srcIp (convertTimespecToMs (subtractTime env.now destEntry.timeOut))
  .rrep { rrep with hopCount := destEntry.hopCount.setWidth 8 } (beyondRrep (env.memory .rrep))

def gratuitousRrep (env : Env) (message : RreqHeader) : Packet :=
  let rrep := generateRrepMessage (env.memory .gratuitousRrep) 0 message.srcIp message.srcSeq
    message.destIp (toU32 activeRouteTimeout)
  .rrep { rrep with hopCount := message.hopCount } (beyondRrep (env.memory .gratuitousRrep))

/-- The entry for the destination is there: the caller has just looked at it. -/
def sendRrepIntermediate (env : Env) (message : RreqHeader) (sender : U32) (next : Handler) :
    Handler :=
  .lock (slotOf message.destIp) <|
  .op (.write message.destIp (.precursor sender)) fun _ n =>
  .unlock (slotOf message.destIp) <|
  match n.getRoutingEntry message.destIp with
  | none => next
  | some destEntry =>
    .op (.sendUnicast sender (intermediateRrep env message destEntry)) fun _ _ =>
    locked message.srcIp (.write message.srcIp (.precursor destEntry.nextHop)) <|
    -- The source tests `flags && RREQ_GRAT`, which any flag makes true.
    if message.flags ≠ 0 then
      .op (.sendUnicast destEntry.nextHop (gratuitousRrep env message)) fun _ _ => next
    else next

/-- Starts a search, unless one is going on or has just failed, and begins to
    wait for it. -/
def startOrJoin (destAddr : U32) (new : Bool) (n : Node) : Handler :=
  match n.getRoutingEntry destAddr with
  | none => dropPacket
  | some destEntry =>
    -- After a failed search packets are dropped as long as there is no route.
    if destEntry.rreqSearch = .searchFailed ∧ destEntry.status = .routeInvalid then dropPacket
    else
      let start : Handler :=
        locked destAddr (.startSearch destAddr) <|
        .op (.beginWait destAddr) fun _ _ => .ret .waits
      if destEntry.rreqSearch = .searchSearching then
        .op (.beginWait destAddr) fun _ _ => .ret .waits
      else if new then start
      -- The timer of an entry that was there must not fire during the search.
      else .op (.write destAddr .stopTimer) fun _ _ => start

/-- `send_rreq` up to its waiting loop. -/
def sendRreq (env : Env) (destAddr : U32) : Handler :=
  .op (.create env destAddr 0 .seqInvalid 0 0 (toU32 myRouteTimeout)) fun before n =>
  startOrJoin destAddr (before.isNew destAddr) n

/-- One access of a waiting `send_rreq` to the outcome of the search. -/
def waiterStep (env : Env) (k : Nat) : Handler :=
  .read fun n =>
  match n.waiters[k]? with
  | none => .ret .waits
  | some w =>
    match n.getRoutingEntry w.dest, w.stage with
    | some destEntry, .waiting =>
      if destEntry.rreqSearch = .searchSearching then .ret .waits
      else .op (.moveWaiter k .left) fun _ _ => .ret .waits
    | some destEntry, .left =>
      .lock (slotOf w.dest) <|
      .op (.moveWaiter k (.decided destEntry.rreqSearch)) fun _ n =>
      .unlock (slotOf w.dest) <|
      .op (.sendUnicast n.ipAddress .timing) fun _ _ => .ret .waits
    | some _, .decided outcome =>
      if outcome = .searchFailed then
        locked w.dest (.write w.dest (.timer env 500)) <|
        .op (.moveWaiter k (.returned .packetDrop)) fun _ _ => dropPacket
      else
        .op (.write w.dest .searchNone) fun _ _ =>
        .op (.moveWaiter k (.returned .packetAccept)) fun _ _ => acceptPacket
    | _, _ => .ret .waits

/-- From the test of the retry loop to the next sleep or to the end. -/
def retryStep (env : Env) (t : SearchThread) (rreq : RreqHeader) (i : Nat) : Handler :=
  if i ≤ rreqRetries then
    .op (.sendRreq t.id rreq ((toU32 netDiameter).setWidth 11) (.retry rreq (i + 1))) fun _ _ =>
    .ret .waits
  else locked t.dest (.searchFailed env t.id t.dest) (.ret .waits)

/-- From the test of the ring loop to the next sleep. -/
def ringStep (env : Env) (t : SearchThread) (rreq : RreqHeader) (ttl : U32) : Handler :=
  if ttl ≤ ttlThreshold then
    .op (.sendRreq t.id rreq (ttl.setWidth 11) (.ring rreq (ttl + ttlIncrement))) fun _ _ =>
    .ret .waits
  else retryStep env t rreq 0

/-- The request of a search: what is known of the destination, under the node's
    own number. -/
def searchRequest (ipAddress seq : U32) (destEntry : RoutingEntry) : RreqHeader :=
  let known := destEntry.seqValid = .seqValid
  generateRreqMessage ((if known then rreqGrat else rreqGrat ||| rreqUnknown).setWidth 8) seq
    destEntry.destIp (if known then destEntry.destSeq else 0) ipAddress seq

/-- `send_rreq_thread` from one of its sleeps to the next. -/
def searchThreadStep (env : Env) (id : Nat) : Handler :=
  .read fun n =>
  match n.threads.find? (fun t => t.id = id) with
  | none => .ret .waits
  | some t =>
    match t.stage with
    | .starting =>
      .op .incrementSequenceNum fun _ n =>
      .lock (slotOf t.dest) <|
      .read fun n' =>
      .unlock (slotOf t.dest) <|
      match n'.getRoutingEntry t.dest with
      | none => .ret .waits
      | some destEntry =>
        let ttl := if ttlStart > destEntry.hopCount then ttlStart
          else destEntry.hopCount + ttlIncrement
        ringStep env t (searchRequest n.ipAddress n.sequenceNum destEntry) ttl
    | .ring rreq ttl => ringStep env t rreq ttl
    | .retry rreq i => retryStep env t rreq i

end OpenManet
