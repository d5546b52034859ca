import OpenManet.Core.Table

/-!
# The State of a Node

The globals of `AODV.c`, the threads a node runs, and the elementary changes the
handlers are made of.

The calls into the packet filter library are recorded in `log`, newest first:
the library's own effect on the kernel's routes, and which packets are in the
air, are both read off this record and need no state of their own.

A search has up to two kinds of threads. `send_rreq_thread` runs the expanding
ring search and is a `SearchThread`; each call of `send_rreq` that spins on the
outcome is a `Waiter`. Both point at the entry they work on, which is the entry
in the slot of their destination.

## Main definitions

* `ApiCall`: A call into the packet filter library.
* `SearchThread`, `Waiter`: The two kinds of threads of a search.
* `Node`: The state of one node.
* `createOrGetRoutingEntry`: Finding an entry or making a fresh one.
* `Node.updateEntry`: Writing through an entry pointer.
* `RoutingEntry.setExpirationTimer`, `RoutingEntry.startRreqTimer`: The timers.
-/

namespace OpenManet

inductive ApiCall where
  | sendUnicast (dest : U32) (packet : Packet)
  | sendBroadcast (packet : Packet)
  | addUnicastRoutingEntry (dest gateway : U32)
  | deleteEntry (dest gateway : U32)
  deriving DecidableEq, Repr

/-- Where `send_rreq_thread` is between two of its sleeps. -/
inductive SearchStage where
  /-- Created, with nothing executed. -/
  | starting
  /-- At the test of the ring loop. -/
  | ring (rreq : RreqHeader) (ttl : U32)
  /-- At the test of the retry loop. -/
  | retry (rreq : RreqHeader) (i : Nat)
  deriving DecidableEq, Repr

structure SearchThread where
  id : Nat
  dest : U32
  stage : SearchStage
  deriving DecidableEq, Repr

/-- Where a call of `send_rreq` is, once it has begun to wait. -/
inductive WaitStage where
  /-- Spinning while the search goes on. -/
  | waiting
  /-- Past the loop, before the outcome is read. -/
  | left
  | decided (outcome : RreqStatus)
  | returned (verdict : Verdict)
  deriving DecidableEq, Repr

structure Waiter where
  dest : U32
  stage : WaitStage
  deriving DecidableEq, Repr

/-- Where the hello thread is. -/
inductive HelloStage where
  /-- Spinning while no route is active. -/
  | spinning
  /-- Past the test and asleep. -/
  | sleeping
  deriving DecidableEq, Repr

structure Node where
  ipAddress : U32
  broadcastIp : U32
  routes : RoutingTable
  sequenceNum : U32
  rreqId : U32
  activeRoutes : U32
  threads : List SearchThread
  nextThread : Nat
  waiters : List Waiter
  /-- The block the hello thread builds its one RREP in. -/
  helloBlock : Nat → Byte
  helloStage : HelloStage
  log : List ApiCall

namespace RoutingEntry

/-- Restarts the expiration timer. With `ms = 0` the deadline stays. -/
def setExpirationTimer (now : Timespec) (ms : U32) (entry : RoutingEntry) : RoutingEntry :=
  { entry with
    expirationThread := true
    timeOut := if ms ≠ 0 then addTimeMs now ms else entry.timeOut }

def startRreqTimer (entry : RoutingEntry) : RoutingEntry := { entry with rreqIdThread := true }

end RoutingEntry

/-- A list with a value appended unless it is there already. -/
def addIfAbsent (list : List U32) (data : U32) : List U32 :=
  if data ∈ list then list else list ++ [data]

/-- The word of `routing_entry` that holds `rreq_id`. -/
def rreqIdWord : Nat := 26

/-- The entry `create_or_get_routing_entry` allocates. Its `rreq_id` is not
    assigned and keeps what the block contained. -/
def freshEntry (env : Env) (destIp destSeq : U32) (validSeq : SeqValid)
    (nextHop hopCount timeOut : U32) : RoutingEntry :=
  { destIp := destIp, destSeq := destSeq, seqValid := validSeq, nextHop := nextHop
    hopCount := hopCount, status := .routeInvalid, timeOut := addTimeMs env.now timeOut
    precursorList := [], nextHopFor := [], expirationThread := false
    rreqId := wordAt (env.memory (.entry destIp)) rreqIdWord
    rreqIdSet := false, rreqIdThread := false, rreqSearch := .searchNone
    rreqMessageSender := 0, activeRoute := 0 }

namespace Node

/-- A node at start-up. -/
def boot (ipAddress broadcastIp : U32) (helloBlock : Nat → Byte) : Node :=
  { ipAddress := ipAddress, broadcastIp := broadcastIp
    routes := RoutingTable.createRoutingTable, sequenceNum := 0, rreqId := 0
    activeRoutes := 0, threads := [], nextThread := 1, waiters := []
    helloBlock := helloBlock, helloStage := .spinning, log := [] }

def getRoutingEntry (n : Node) (ip : U32) : Option RoutingEntry := n.routes.getRoutingEntry ip

def call (c : ApiCall) (n : Node) : Node := { n with log := c :: n.log }

def updateEntry (ip : U32) (f : RoutingEntry → RoutingEntry) (n : Node) : Node :=
  { n with routes := n.routes.modify ip f }

/-- Makes an entry for the address unless one is found. The entry found may
    belong to another address in the same slot. -/
def createOrGetRoutingEntry (env : Env) (destIp destSeq : U32) (validSeq : SeqValid)
    (nextHop hopCount timeOut : U32) (n : Node) : Node :=
  match n.getRoutingEntry destIp with
  | some _ => n
  | none =>
    let entry := freshEntry env destIp destSeq validSeq nextHop hopCount timeOut
    { n with routes := n.routes.addRoutingEntry entry }

/-- What `create_or_get_routing_entry` stores in `new`, from the node before it. -/
def isNew (destIp : U32) (n : Node) : Bool := (n.getRoutingEntry destIp).isNone

/-- `next_hop` read through a pointer to the entry for an address. -/
def nextHopOf (ip : U32) (n : Node) : U32 :=
  match n.getRoutingEntry ip with
  | none => 0
  | some e => e.nextHop

/-- `if(active_routes > 0) active_routes -= active_route`. -/
def releaseRoute (activeRoute : U32) (n : Node) : Node :=
  if n.activeRoutes > 0 then { n with activeRoutes := n.activeRoutes - activeRoute } else n

/-- Ends a search thread, if one has this id. -/
def pthreadCancel (id : Nat) (n : Node) : Node :=
  { n with threads := n.threads.filter (fun t => t.id ≠ id) }

/-- The search thread with this id is now at `stage`. -/
def moveThread (id : Nat) (stage : SearchStage) (n : Node) : Node :=
  let move (t : SearchThread) : SearchThread := if t.id = id then { t with stage := stage } else t
  { n with threads := n.threads.map move }

/-! ### What the elementary changes do to each slot -/

theorem boot_slots_ne (ip bcast : U32) (hello : Nat → Byte) (i : Fin 256) (e : RoutingEntry) :
    (boot ip bcast hello).routes.slots i ≠ some e := by
  simp only [boot, RoutingTable.createRoutingTable_slots, ne_eq, reduceCtorEq, not_false_eq_true]

theorem getRoutingEntry_eq (n : Node) (ip : U32) :
    n.getRoutingEntry ip = n.routes.slots (slotOf ip) := rfl

theorem updateEntry_slots (ip : U32) (f : RoutingEntry → RoutingEntry) (n : Node) (i : Fin 256) :
    (n.updateEntry ip f).routes.slots i =
      if i = slotOf ip then (n.routes.slots i).map (fun e => { f e with destIp := e.destIp })
      else n.routes.slots i := rfl

/-- Writing through a pointer, for a write that leaves the address alone. -/
theorem updateEntry_slots_of_keep (ip : U32) (f : RoutingEntry → RoutingEntry)
    (hf : ∀ e, (f e).destIp = e.destIp) (n : Node) (i : Fin 256) :
    (n.updateEntry ip f).routes.slots i =
      if i = slotOf ip then (n.routes.slots i).map f else n.routes.slots i := by
  have hkeep : (fun e => { f e with destIp := e.destIp }) = f := by
    funext e
    rw [← hf e]
  rw [updateEntry_slots, hkeep]

theorem createOrGet_slots (env : Env) (ip s : U32) (v : SeqValid) (h c t : U32) (n : Node)
    (i : Fin 256) :
    (n.createOrGetRoutingEntry env ip s v h c t).routes.slots i =
      if i = slotOf ip then some ((n.routes.slots i).getD (freshEntry env ip s v h c t))
      else n.routes.slots i := by
  unfold createOrGetRoutingEntry
  rw [getRoutingEntry_eq]
  by_cases hi : i = slotOf ip
  · rw [if_pos hi, hi]
    cases hslot : n.routes.slots (slotOf ip) with
    | none =>
        simp only [RoutingTable.addRoutingEntry_slots, freshEntry, if_true, Option.getD_none]
    | some e => simp only [hslot, Option.getD_some]
  · rw [if_neg hi]
    cases hslot : n.routes.slots (slotOf ip) with
    | none => simp only [RoutingTable.addRoutingEntry_slots, freshEntry, if_neg hi]
    | some e => rfl

/-- After `create_or_get_routing_entry` there is an entry. -/
theorem createOrGet_found (env : Env) (ip s : U32) (v : SeqValid) (h c t : U32) (n : Node) :
    ∃ e, (n.createOrGetRoutingEntry env ip s v h c t).getRoutingEntry ip = some e := by
  rw [getRoutingEntry_eq, createOrGet_slots, if_pos rfl]
  exact ⟨_, rfl⟩

/-- Finding or making an entry changes nothing of the node but its table. -/
theorem createOrGet_frame (env : Env) (ip s : U32) (v : SeqValid) (h c t : U32) (n : Node) :
    n.createOrGetRoutingEntry env ip s v h c t =
      { n with routes := (n.createOrGetRoutingEntry env ip s v h c t).routes } := by
  unfold createOrGetRoutingEntry
  cases n.getRoutingEntry ip with
  | none => rfl
  | some e => rfl

end Node

end OpenManet
