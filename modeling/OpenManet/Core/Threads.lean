import OpenManet.Core.Machine
import OpenManet.Library.Cancellation

/-!
# Threads Step by Step

The three thread functions, `send_rreq_thread`, `expiration_func` and `rreq_id_func`,
and the functions that cancel them, with every lock, unlock, write, sleep and send a
step of its own. `Core.Machine` runs a handler to its end in one step and only knows
whether a timer is running. Here a thread has an id, which the entry it works for
keeps, and once it is cancelled may be ended between any two of its steps, since it asks
for asynchronous cancellation.

An entry lies at an address of its own, and its mutex is that address's: an entry and
the one made later in its slot are two. Addresses are not given out twice, so a thread
that goes on with an entry that has been freed meets no other entry there.

A loop is left at its head: the program of a round returns the routine that starts the
next one. So does `expiration_func`, which calls itself in the end.

## Main definitions

* `Service`: The threads an entry keeps the ids of.
* `Mutex`, `Shared`, `ThreadOp`: What the threads share, and what they do to it.
* `setExpirationTimer`, `startRreqTimer`, `freeEntry`: The functions that cancel timers.
* `expirationFunc`, `rreqIdFunc`, `sendRreqThread`: The thread functions.
* `sendRreq`, `recvRrep`, `recvRreq`, `restartTimer`: What is called from outside.
* `Routine`, `threading`: All of it as threads running side by side.
-/

namespace OpenManet

namespace Threads

/-- The threads an entry keeps the ids of, in `expiration_thread`, `rreq_id_thread` and
    `rreq_message_sender`. -/
inductive Service where
  | expiration
  | rreqId
  | search
  deriving DecidableEq, Repr

/-- The two numbers kept as `safe_32`. -/
inductive Safe where
  | rreqId
  | sequenceNum
  deriving DecidableEq, Repr

inductive Mutex where
  /-- `entry_mutex` of the entry at an address. -/
  | entry (p : Nat)
  | safe (target : Safe)
  deriving DecidableEq, Repr

/-- An entry and the ids of its threads, zero where there is none. The entry's own marks
    of running threads are not used here. -/
structure EntryBlock where
  entry : RoutingEntry
  thread : Service → Nat

structure Shared where
  ipAddress : U32
  number : Safe → U32
  activeRoutes : U32
  /-- What lies at an address. -/
  blocks : Nat → EntryBlock
  /-- The addresses of the entries in the table. -/
  routes : DataHeader Nat
  nextEntry : Nat
  /-- The entry has been taken out of the table to be freed. -/
  freed : Nat → Bool
  log : List ApiCall

namespace Shared

/-- An entry is read through a pointer. -/
def entry (s : Shared) (p : Nat) : RoutingEntry := (s.blocks p).entry

/-- The id kept in the entry. -/
def threadOf (s : Shared) (kind : Service) (p : Nat) : Nat := (s.blocks p).thread kind

/-- `get_routing_entry`. -/
def find (s : Shared) (destIp : U32) : Option Nat := findEntryInDataStructure s.routes destIp

def isNew (s : Shared) (destIp : U32) : Bool := (s.find destIp).isNone

def setBlock (p : Nat) (b : EntryBlock) (s : Shared) : Shared :=
  { s with blocks := fun q => if q = p then b else s.blocks q }

def setThread (kind : Service) (p : Nat) (id : Nat) (s : Shared) : Shared :=
  s.setBlock p { s.blocks p with
    thread := fun kind' => if kind' = kind then id else s.threadOf kind' p }

def setNumber (target : Safe) (value : U32) (s : Shared) : Shared :=
  { s with number := fun target' => if target' = target then value else s.number target' }

end Shared

/-- The steps that read or change what is shared. Where a value depends on the clock or
    on fresh memory it is taken from the surroundings of the step. -/
inductive ThreadOp where
  /-- `create_or_get_routing_entry`. -/
  | create (destIp destSeq : U32) (validSeq : SeqValid) (nextHop hopCount timeOut : U32)
  /-- A write through the pointer to an entry. -/
  | write (p : Nat) (f : Env → RoutingEntry → RoutingEntry)
  /-- `pthread_cancel` of the thread whose id the entry keeps. -/
  | cancel (kind : Service) (p : Nat)
  /-- The id is set to zero. -/
  | clear (kind : Service) (p : Nat)
  /-- `pthread_create`, with the entry as argument and the id written to it. -/
  | spawn (kind : Service) (p : Nat)
  | assign (target : Safe) (value : U32)
  | addActiveRoutes (change : U32)
  /-- `remove_routing_entry`, of which `free_entry` gets what it returns. -/
  | remove (destIp : U32)
  | call (c : Env → ApiCall)
  | sleep

namespace ThreadOp

def apply (env : Env) (id : Nat) : ThreadOp → Shared → Shared
  | create destIp destSeq validSeq nextHop hopCount timeOut, s =>
    match s.find destIp with
    | some _ => s
    | none =>
      let entry := freshEntry env destIp destSeq validSeq nextHop hopCount timeOut
      { s.setBlock s.nextEntry { entry := entry, thread := fun _ => 0 } with
        routes := addEntryToDataStructure s.routes s.nextEntry destIp
        nextEntry := s.nextEntry + 1 }
  | write p f, s => s.setBlock p { s.blocks p with entry := f env (s.entry p) }
  | cancel _ _, s => s
  | clear kind p, s => s.setThread kind p 0
  | spawn kind p, s => s.setThread kind p id
  | assign target value, s => s.setNumber target value
  | addActiveRoutes change, s => { s with activeRoutes := s.activeRoutes + change }
  | remove destIp, s =>
    match s.find destIp with
    | none => s
    | some p =>
      { s with
        routes := removeEntryFromDataStructure s.routes destIp
        freed := fun q => if q = p then true else s.freed q }
  | call c, s => { s with log := c env :: s.log }
  | sleep, s => s

end ThreadOp

/-- What can be called from outside. -/
inductive Call where
  | recvRreq (senderIp : U32) (m : RreqHeader)
  | recvRrep (senderIp : U32) (m : RrepHeader)
  | sendRreq (destAddr : U32)
  /-- Any other caller of `set_expiration_timer`, with what it writes before. -/
  | restartTimer (ip : U32) (f : Env → RoutingEntry → RoutingEntry) (ms : U32)

/-- What a thread runs, or the head of the loop it is in. -/
inductive Routine where
  | expirationFunc (p : Nat)
  | rreqIdFunc (p : Nat)
  | sendRreqThread (p : Nat)
  /-- The test of the ring loop of `send_rreq_thread`. -/
  | ringLoop (p : Nat) (rreq : RreqHeader) (ttl : U32)
  /-- The test of its retry loop. -/
  | retryLoop (p : Nat) (rreq : RreqHeader) (i : Nat)
  | call (c : Call)
  /-- The test of the waiting loop of `send_rreq`. -/
  | waitLoop (p : Nat)

/-- What a thread has left to do, up to the next head of a loop. -/
abbrev Program := Prog Shared ThreadOp Mutex (Option Routine)

/-- The thread returns. -/
def done : Program := .ret none

/-! ### Shared numbers -/

def incrementSafe (target : Safe) (next : U32 → Program) : Program :=
  .lock (.safe target) <|
  .read fun s =>
  .op (.assign target (s.number target + 1)) fun _ _ =>
  -- What is returned is read again, still under the mutex.
  .read fun s =>
  .unlock (.safe target) (next (s.number target))

def readSafe (target : Safe) (next : U32 → Program) : Program :=
  .lock (.safe target) <|
  .read fun s =>
  .unlock (.safe target) (next (s.number target))

def writeSafe (target : Safe) (newNumber : U32) (next : Program) : Program :=
  .lock (.safe target) <|
  .op (.assign target newNumber) fun _ _ =>
  .unlock (.safe target) next

/-! ### Timers -/

/-- A plain write. -/
def writeEntry (p : Nat) (f : RoutingEntry → RoutingEntry) (next : Program) : Program :=
  .op (.write p fun _ e => f e) fun _ _ => next

/-- Cancels the thread whose id is kept, if there is one, and goes on with `after`. -/
def cancelThread (kind : Service) (p : Nat) (after next : Program) : Program :=
  .read fun s =>
  if s.threadOf kind p ≠ 0 then .op (.cancel kind p) fun _ _ => after else next

/-- The deadline moves unless the time is zero. -/
def moveDeadline (ms : Env → RoutingEntry → U32) (env : Env) (e : RoutingEntry) : RoutingEntry :=
  { e with timeOut := if ms env e ≠ 0 then addTimeMs env.now (ms env e) else e.timeOut }

/-- `set_expiration_timer`, with the time as its caller works it out. -/
def setExpirationTimer (p : Nat) (ms : Env → RoutingEntry → U32) (next : Program) : Program :=
  let start : Program :=
    .op (.write p (moveDeadline ms)) fun _ _ => .op (.spawn .expiration p) fun _ _ => next
  cancelThread .expiration p (.op (.clear .expiration p) fun _ _ => start) start

def startRreqTimer (p : Nat) (next : Program) : Program :=
  let start : Program := .op (.spawn .rreqId p) fun _ _ => next
  cancelThread .rreqId p start start

/-- The threads are cancelled without the entry's mutex. -/
def freeEntry (p : Nat) (next : Program) : Program :=
  let search := cancelThread .search p next next
  cancelThread .rreqId p search search

/-- The last part of a timer that has found its entry invalid. With nothing to remove
    `free_entry` reads through a null pointer, and the program ends. -/
def deleteEntry (p : Nat) : Program :=
  .read fun s =>
  .op (.remove (s.entry p).destIp) fun before _ =>
  match before.find (s.entry p).destIp with
  | none => done
  | some q => freeEntry q done

/-- The timer goes over a valid entry, which becomes invalid. -/
def expireEntry (p : Nat) (next : Program) : Program :=
  writeEntry p (fun e => { e with status := .routeInvalid }) <|
  .read fun s =>
  .op (.call fun _ => .deleteEntry (s.entry p).destIp (s.entry p).nextHop) fun _ _ =>
  let restart : Program :=
    .op (.write p fun env e => { e with timeOut := env.now }) fun _ _ =>
    writeEntry p (fun e => { e with timeOut := addTimeMs e.timeOut (toU32 deletePeriod) }) next
  .read fun s =>
  if s.activeRoutes > 0 ∧ (s.entry p).seqValid = .seqValid then
    .op (.addActiveRoutes (-(s.entry p).activeRoute)) fun _ _ => restart
  else restart

def expirationFunc (p : Nat) : Program :=
  .op .sleep fun _ _ =>
  .lock (.entry p) <|
  .read fun s =>
  if (s.entry p).status = .routeInvalid then .unlock (.entry p) (deleteEntry p)
  else expireEntry p (.unlock (.entry p) (.ret (some (.expirationFunc p))))

def rreqIdFunc (p : Nat) : Program :=
  .op .sleep fun _ _ =>
  .lock (.entry p) <|
  writeEntry p (fun e => { e with rreqId := 0, rreqIdSet := true }) <|
  .op (.clear .rreqId p) fun _ _ =>
  .unlock (.entry p) done

/-! ### Searches -/

/-- One round: the request is sent under the next id, and its answer waited for. -/
def sendRound (rreq : RreqHeader) (ttl : BitVec 11) (next : Program) : Program :=
  incrementSafe .rreqId fun id =>
  .op (.call fun _ => .sendBroadcast (.rreq { rreq with rreqId := id, ttl := ttl })) fun _ _ =>
  .op .sleep fun _ _ =>
  next

/-- `send_rreq_thread` up to its first loop. -/
def sendRreqThread (p : Nat) : Program :=
  incrementSafe .sequenceNum fun seq =>
  .lock (.entry p) <|
  .read fun s =>
  .unlock (.entry p) <|
  let hopCount := (s.entry p).hopCount
  .ret (some (.ringLoop p (searchRequest s.ipAddress seq (s.entry p))
    (if ttlStart > hopCount then ttlStart else hopCount + ttlIncrement)))

def ringLoop (p : Nat) (rreq : RreqHeader) (ttl : U32) : Program :=
  if ttl ≤ ttlThreshold then
    sendRound rreq (ttl.setWidth 11) (.ret (some (.ringLoop p rreq (ttl + ttlIncrement))))
  else .ret (some (.retryLoop p rreq 0))

/-- The retry loop, and the end of the thread behind it. -/
def retryLoop (p : Nat) (rreq : RreqHeader) (i : Nat) : Program :=
  if i ≤ rreqRetries then
    sendRound rreq ((toU32 netDiameter).setWidth 11) (.ret (some (.retryLoop p rreq (i + 1))))
  else
    .lock (.entry p) <|
    .op (.clear .search p) fun _ _ =>
    writeEntry p (fun e => { e with rreqSearch := .searchFailed }) <|
    setExpirationTimer p (fun _ _ => toU32 (2 * netTraversalTime)) <|
    .unlock (.entry p) done

/-- `send_rreq` once the timer is stopped. -/
def startSearch (p : Nat) : Program :=
  .read fun s =>
  if (s.entry p).rreqSearch = .searchSearching then .ret (some (.waitLoop p))
  else
    .lock (.entry p) <|
    .op (.spawn .search p) fun _ _ =>
    writeEntry p (fun e => { e with rreqSearch := .searchSearching }) <|
    .unlock (.entry p) (.ret (some (.waitLoop p)))

/-- `send_rreq` up to its waiting loop. The timer is stopped without the mutex. -/
def sendRreq (destAddr : U32) : Program :=
  .op (.create destAddr 0 .seqInvalid 0 0 (toU32 myRouteTimeout)) fun before after =>
  match after.find destAddr with
  | none => done
  | some p =>
    .read fun s =>
    if (s.entry p).rreqSearch = .searchFailed ∧ (s.entry p).status = .routeInvalid then done
    else
      -- The search is looked at again, and once more when the timer is stopped.
      .read fun s =>
      if before.isNew destAddr = false ∧ (s.entry p).rreqSearch ≠ .searchSearching then
        let stopped : Program := .op (.clear .expiration p) fun _ _ => startSearch p
        cancelThread .expiration p stopped stopped
      else startSearch p

/-- The waiting loop of `send_rreq` and what follows it. -/
def waitLoop (p : Nat) : Program :=
  .read fun s =>
  if (s.entry p).rreqSearch = .searchSearching then .ret (some (.waitLoop p))
  else
    .lock (.entry p) <|
    .read fun s =>
    .unlock (.entry p) <|
    .op (.call fun _ => .sendUnicast s.ipAddress .timing) fun _ _ =>
    if (s.entry p).rreqSearch = .searchFailed then
      .lock (.entry p) <|
      setExpirationTimer p (fun _ _ => 500) <|
      .unlock (.entry p) done
    else writeEntry p (fun e => { e with rreqSearch := .searchNone }) done

/-! ### Messages -/

/-- The entry for the address as `create_or_get_routing_entry` returns it, and what it
    stores in `new`. -/
def createEntry (destIp destSeq : U32) (validSeq : SeqValid) (nextHop hopCount timeOut : U32)
    (next : Nat → Bool → Program) : Program :=
  .op (.create destIp destSeq validSeq nextHop hopCount timeOut) fun before after =>
  match after.find destIp with
  | none => done
  | some p => next p (before.isNew destIp)

/-- The previous-hop section of `recv_rreq` and `recv_rrep`. -/
def previousHopSection (senderIp listed : U32) (next : Program) : Program :=
  createEntry senderIp 0 .seqInvalid senderIp 0 (toU32 activeRouteTimeout) fun p new =>
  .lock (.entry p) <|
  writeEntry p (fun e => { e with status := .routeValid }) <|
  writeEntry p (fun e => { e with nextHopFor := addIfAbsent e.nextHopFor listed }) <|
  .op (.call fun _ => .addUnicastRoutingEntry senderIp senderIp) fun _ _ =>
  .op (.write p fun env e =>
    { e with timeOut :=
        if new then e.timeOut else addTimeMs env.now (toU32 activeRouteTimeout) }) fun _ _ =>
  setExpirationTimer p (fun _ _ => 0) <|
  .unlock (.entry p) next

/-- The route is counted, once. -/
def activate (p : Nat) (next : Program) : Program :=
  .read fun s =>
  if (s.entry p).activeRoute = 0 then
    writeEntry p (fun e => { e with activeRoute := 1 }) <|
    .op (.addActiveRoutes 1) fun _ _ => next
  else next

def addPrecursor (p : Nat) (ip : U32) (next : Program) : Program :=
  writeEntry p (fun e => { e with precursorList := e.precursorList ++ [ip] }) next

/-- The section in which the originator of a search ends it. -/
def publishFound (m : RrepHeader) (next : Program) : Program :=
  .read fun s =>
  match if s.ipAddress = m.srcIp then s.find m.destIp else none with
  | none => next
  | some p =>
    let finish : Program :=
      .op (.clear .search p) fun _ _ => .unlock (.entry p) next
    .lock (.entry p) <|
    writeEntry p (fun e => { e with rreqSearch := .searchFound }) <|
    cancelThread .search p (.op (.clear .search p) fun _ _ => finish) finish

/-- `recv_rrep` for a hello; the hop count of `m` is incremented already. -/
def recvHello (senderIp : U32) (m : RrepHeader) : Program :=
  createEntry m.destIp m.destSeq .seqValid senderIp (m.hopCount.setWidth 32) m.lifetime fun p new =>
  .lock (.entry p) <|
  .read fun s =>
  if takesHello m new (s.entry p) then
    writeEntry p (fun e => { e with seqValid := .seqValid }) <|
    setExpirationTimer p (fun _ _ => m.lifetime) <|
    writeEntry p (fun e => { e with destSeq := m.destSeq }) <|
    .unlock (.entry p) done
  else .unlock (.entry p) done

/-- The reply is passed on, with the destination's mutex held. -/
def forwardRrep (p : Nat) (m : RrepHeader) (next : Program) : Program :=
  .read fun s =>
  match if s.ipAddress ≠ m.srcIp then s.find m.srcIp else none with
  | none => next
  | some o =>
    .lock (.entry o) <|
    activate o <|
    -- Either next hop may have changed since it was last read.
    .read fun s =>
    addPrecursor o (s.entry p).nextHop <|
    .read fun s =>
    addPrecursor p (s.entry o).nextHop <|
    .read fun s =>
    .op (.call fun _ => .sendUnicast (s.entry o).nextHop (.rrep m [])) fun _ _ =>
    .unlock (.entry o) next

/-- The forward route and everything after it; the hop count of `m` is incremented
    already. -/
def installForwardRoute (senderIp : U32) (m : RrepHeader) : Program :=
  createEntry m.destIp m.destSeq .seqValid senderIp (m.hopCount.setWidth 32) m.lifetime fun p new =>
  let addRoute (next : Program) : Program :=
    .op (.call fun _ => .addUnicastRoutingEntry m.destIp senderIp) fun _ _ => next
  -- What follows the test on both of its ways.
  let afterUpdate : Program :=
    writeEntry p (fun e => { e with status := .routeValid }) <|
    addRoute <|
    activate p <|
    forwardRrep p m <|
    .unlock (.entry p) done
  .lock (.entry p) <|
  .read fun s =>
  if new || fresherForward m (s.entry p) then
    writeEntry p (fun e => { e with
      status := .routeValid, seqValid := .seqValid, nextHop := senderIp
      hopCount := m.hopCount.setWidth 32 }) <|
    setExpirationTimer p (fun _ _ => m.lifetime) <|
    writeEntry p (fun e => { e with destSeq := m.destSeq }) <|
    addRoute afterUpdate
  else setExpirationTimer p (fun _ _ => m.lifetime) afterUpdate

def recvRrep (senderIp : U32) (m : RrepHeader) : Program :=
  publishFound m <|
  if m.srcIp = 0 then recvHello senderIp (incrementHopRrep m)
  else
    previousHopSection senderIp m.destIp <|
    installForwardRoute senderIp (incrementHopRrep m)

def sendRrepDestination (message : RreqHeader) (senderIp : U32) : Program :=
  readSafe .sequenceNum fun sequenceNum =>
  let seq := nextOwnSeq message sequenceNum
  writeSafe .sequenceNum seq <|
  .read fun s =>
  .op (.call fun env => .sendUnicast senderIp (.rrep (generateRrepMessage (env.memory .rrep) 0
    s.ipAddress seq message.srcIp (toU32 myRouteTimeout)) [])) fun _ _ =>
  done

def sendRrepIntermediate (message : RreqHeader) (sender : U32) : Program :=
  .read fun s =>
  match s.find message.destIp with
  | none => done
  | some p =>
    .lock (.entry p) <|
    addPrecursor p sender <|
    .unlock (.entry p) <|
    .read fun s =>
    .op (.call fun env => .sendUnicast sender (intermediateRrep env message (s.entry p))) fun _ _ =>
    .read fun s =>
    match s.find message.srcIp with
    | none => done
    | some o =>
      .lock (.entry o) <|
      .read fun s =>
      addPrecursor o (s.entry p).nextHop <|
      .unlock (.entry o) <|
      .read fun s =>
      if message.flags ≠ 0 then
        .op (.call fun env => .sendUnicast (s.entry p).nextHop (gratuitousRrep env message))
          fun _ _ => done
      else done

def answerOrForward (senderIp : U32) (m : RreqHeader) : Program :=
  .read fun s =>
  let destination := (s.find m.destIp).map s.entry
  if destination.any (answersFromTable m) then sendRrepIntermediate m senderIp
  else if m.ttl ≤ 1 then done
  else .op (.call fun _ => .sendBroadcast (.rreq (forwardedRreq m destination))) fun _ _ => done

/-- The lifetime a request gives the reverse route. -/
def reverseLifetime (m : RreqHeader) (env : Env) (e : RoutingEntry) : U32 :=
  convertTimespecToMs (maxTimespec (convertMsToTimespec (minimalLifetime m))
    (subtractTime env.now e.timeOut))

/-- The reverse route and everything after it; the hop count of `m` is incremented
    already. -/
def recvNewRreq (senderIp : U32) (m : RreqHeader) : Program :=
  createEntry m.srcIp m.srcSeq .seqValid senderIp (m.hopCount.setWidth 32) 0 fun p new =>
  .lock (.entry p) <|
  writeEntry p (fun e => { e with rreqId := m.rreqId, rreqIdSet := true }) <|
  startRreqTimer p <|
  writeEntry p (fun e =>
    if new || fresherReverse m e then
      { e with
        destSeq := m.srcSeq, seqValid := .seqValid, nextHop := senderIp
        hopCount := m.hopCount.setWidth 32 }
    else e) <|
  writeEntry p (fun e => { e with status := .routeValid }) <|
  .read fun s =>
  .op (.call fun _ => .addUnicastRoutingEntry (s.entry p).destIp senderIp) fun _ _ =>
  setExpirationTimer p (reverseLifetime m) <|
  .read fun s =>
  if s.ipAddress = m.destIp then
    activate p <| .unlock (.entry p) <| sendRrepDestination m senderIp
  else .unlock (.entry p) <| answerOrForward senderIp m

def recvRreq (senderIp : U32) (m : RreqHeader) : Program :=
  previousHopSection senderIp m.srcIp <|
  .read fun s =>
  if m.srcIp = s.ipAddress then done
  else if ((s.find m.srcIp).map s.entry).any (isDuplicate s.ipAddress m) then done
  else recvNewRreq senderIp (incrementHopRreq m)

/-- A section of another handler that restarts the timer of the entry for an address. -/
def restartTimer (ip : U32) (f : Env → RoutingEntry → RoutingEntry) (ms : U32) : Program :=
  .read fun s =>
  match s.find ip with
  | none => done
  | some p =>
    .lock (.entry p) <|
    .op (.write p f) fun _ _ =>
    setExpirationTimer p (fun _ _ => ms) <|
    .unlock (.entry p) done

/-! ### Side by side -/

def Call.program : Call → Program
  | recvRreq senderIp m => Threads.recvRreq senderIp m
  | recvRrep senderIp m => Threads.recvRrep senderIp m
  | sendRreq destAddr => Threads.sendRreq destAddr
  | restartTimer ip f ms => Threads.restartTimer ip f ms

def Routine.program : Routine → Program
  | expirationFunc p => Threads.expirationFunc p
  | rreqIdFunc p => Threads.rreqIdFunc p
  | sendRreqThread p => Threads.sendRreqThread p
  | ringLoop p rreq ttl => Threads.ringLoop p rreq ttl
  | retryLoop p rreq i => Threads.retryLoop p rreq i
  | call c => c.program
  | waitLoop p => Threads.waitLoop p

/-- The thread function of a service. -/
def Service.routine : Service → Nat → Routine
  | expiration, p => .expirationFunc p
  | rreqId, p => .rreqIdFunc p
  | search, p => .sendRreqThread p

def ThreadOp.control : ThreadOp → Shared → Control Routine
  | spawn kind p, _ => .start (kind.routine p)
  | cancel kind p, s => .stop (s.threadOf kind p)
  | create _ _ _ _ _ _, _ | write _ _, _ | clear _ _, _ | assign _ _, _ | addActiveRoutes _, _
  | remove _, _ | call _, _ | sleep, _ => .nothing

def threading : Threading Call Env Routine Shared ThreadOp Mutex where
  program := Routine.program
  called := Routine.call
  apply := ThreadOp.apply
  control := ThreadOp.control

/-- A node at start-up. -/
def boot (ipAddress : U32) : Shared :=
  { ipAddress := ipAddress, number := fun _ => 0, activeRoutes := 0
    blocks := fun _ => { entry := freshEntry .clear 0 0 .seqInvalid 0 0 0, thread := fun _ => 0 }
    routes := createDataHeader, nextEntry := 0, freed := fun _ => false, log := [] }

end Threads

end OpenManet
