import OpenManet.Core.Node

/-!
# The Operations on a Node

The changes the handlers and threads make to a node, each as one atomic
operation. What stands between a lock and the matching unlock is one operation,
or two where another entry's mutex is taken in between; what the source does
without a mutex is an operation of its own. The handlers in `Core.SendMessages`,
`Core.RecvMessages` and `Core.Handlers` string them together.

An operation is first what it does to the entry it works on, a function of
`RoutingEntry`, and then, in `Op.apply`, that write together with the calls to
the packet filter library and the changes to the globals.

Both `recv_rreq` and `recv_rrep` begin by making the previous hop a valid route.
They differ only in which address they list under it, so they share
`RoutingEntry.previousHop`.

## Main definitions

* `fresherReverse`, `fresherForward`: The two update tests.
* `RoutingEntry.previousHop`, `RoutingEntry.reverseRoute`,
  `RoutingEntry.forwardRoute`, `RoutingEntry.hello`, `RoutingEntry.breakRoute`,
  `RoutingEntry.linkBreak`: What the sections write.
* `Op`, `Op.apply`: The operations and their effect.

## Theorems

* `previousHop_eq`, `reverseRoute_accepted`, `reverseRoute_refused`,
  `hello_accepted`, `hello_refused`, `forwardRoute_accepted`,
  `forwardRoute_refused`: What the sections with a test leave of an entry.
* `reverseRoute_frame`, `hello_frame`, `forwardRoute_frame`: What they leave alone.
* `reverseRoute_up`, `forwardRoute_up`: The route is up in either case.
-/

namespace OpenManet

/-! ### What is written to an entry -/

/-- The previous-hop section. -/
def RoutingEntry.previousHop (env : Env) (listed : U32) (new : Bool) (e : RoutingEntry) :
    RoutingEntry :=
  let e := { e with status := .routeValid, nextHopFor := addIfAbsent e.nextHopFor listed }
  -- An entry just made has its deadline; another loses the one it had, even a later one.
  let e :=
    if new then e
    else { e with timeOut := addTimeMs env.now (toU32 activeRouteTimeout) }
  e.setExpirationTimer env.now 0

/-- The update test of the reverse route. The first comparison is between
    `uint32_t` values and so unsigned. -/
def fresherReverse (m : RreqHeader) (e : RoutingEntry) : Bool :=
  m.srcSeq > e.destSeq || e.seqValid = .seqInvalid ||
    (m.srcSeq = e.destSeq && m.hopCount.setWidth 32 < e.hopCount)

/-- The least lifetime a request gives to the reverse route, as passed to
    `convert_ms_to_timespec`. -/
def minimalLifetime (m : RreqHeader) : U32 :=
  toU32 (2 * netTraversalTime - 2 * m.hopCount.toNat * nodeTraversalTime)

/-- The reverse-route section of `recv_rreq`, up to the restart of the timer. The
    hop count of `m` is incremented already. -/
def RoutingEntry.reverseRoute (env : Env) (senderIp : U32) (m : RreqHeader) (new : Bool)
    (e : RoutingEntry) : RoutingEntry :=
  let e := { e with rreqId := m.rreqId, rreqIdSet := true }.startRreqTimer
  let e :=
    if new || fresherReverse m e then
      { e with
        destSeq := m.srcSeq
        seqValid := .seqValid
        nextHop := senderIp
        hopCount := m.hopCount.setWidth 32 }
    else e
  -- The route is up even if the request has been refused.
  let e := { e with status := .routeValid }
  let remaining := subtractTime env.now e.timeOut
  e.setExpirationTimer env.now
    (convertTimespecToMs (maxTimespec (convertMsToTimespec (minimalLifetime m)) remaining))

/-- The section of `recv_rrep` for hellos. -/
def RoutingEntry.hello (env : Env) (m : RrepHeader) (new : Bool) (e : RoutingEntry) :
    RoutingEntry :=
  if new || e.seqValid = .seqInvalid || seqCompare m.destSeq e.destSeq ≥ 0 then
    { { e with seqValid := .seqValid }.setExpirationTimer env.now m.lifetime with
      destSeq := m.destSeq }
  else e

/-- The update test of the forward route. -/
def fresherForward (m : RrepHeader) (e : RoutingEntry) : Bool :=
  e.seqValid = .seqInvalid || seqCompare m.destSeq e.destSeq ≥ 0 ||
    (m.destSeq = e.destSeq && e.status = .routeInvalid) ||
    (m.destSeq = e.destSeq && m.hopCount.setWidth 32 < e.hopCount)

/-- The forward-route section of `recv_rrep`. The status is set whether or not
    the update test succeeds. -/
def RoutingEntry.forwardRoute (env : Env) (senderIp : U32) (m : RrepHeader) (new : Bool)
    (e : RoutingEntry) : RoutingEntry :=
  let e :=
    if new || fresherForward m e then
      { { e with
          status := .routeValid
          seqValid := .seqValid
          nextHop := senderIp
          hopCount := m.hopCount.setWidth 32 }.setExpirationTimer env.now m.lifetime with
        destSeq := m.destSeq }
    else e.setExpirationTimer env.now m.lifetime
  { e with status := .routeValid }

/-- What a RERR does to an entry whose route it breaks. -/
def RoutingEntry.breakRoute (env : Env) (destSeq : U32) (e : RoutingEntry) : RoutingEntry :=
  { e with destSeq := destSeq, status := .routeInvalid }.setExpirationTimer env.now
    (toU32 deletePeriod)

/-- What a link break does to the entry of a listed destination. -/
def RoutingEntry.linkBreak (env : Env) (e : RoutingEntry) : RoutingEntry :=
  { e with destSeq := e.destSeq + 1, status := .routeInvalid }.setExpirationTimer env.now
    (toU32 deletePeriod)

/-- An outgoing packet found the next hop gone. -/
def RoutingEntry.outgoingBreak (env : Env) (e : RoutingEntry) : RoutingEntry :=
  { e with status := .routeInvalid }.setExpirationTimer env.now (toU32 deletePeriod)

/-- The timer of a valid entry has run out; the same timer goes on. -/
def RoutingEntry.expireRoute (env : Env) (e : RoutingEntry) : RoutingEntry :=
  { e with status := .routeInvalid, timeOut := addTimeMs env.now (toU32 deletePeriod) }

/-- The entry is counted as an active route, once. -/
def RoutingEntry.activate (e : RoutingEntry) : RoutingEntry :=
  if e.activeRoute = 0 then { e with activeRoute := 1 } else e

def RoutingEntry.searchFound (e : RoutingEntry) : RoutingEntry :=
  { e with rreqSearch := .searchFound, rreqMessageSender := 0 }

def RoutingEntry.startSearch (id : Nat) (e : RoutingEntry) : RoutingEntry :=
  { e with rreqMessageSender := id, rreqSearch := .searchSearching }

def RoutingEntry.searchFailed (env : Env) (e : RoutingEntry) : RoutingEntry :=
  { e with rreqMessageSender := 0, rreqSearch := .searchFailed }.setExpirationTimer env.now
    (toU32 (2 * netTraversalTime))

/-- The writes that touch one entry and nothing else. -/
inductive Write where
  /-- `set_expiration_timer`. -/
  | timer (env : Env) (ms : U32)
  /-- The expiration timer is cancelled and not restarted. -/
  | stopTimer
  | precursor (ip : U32)
  /-- `rreq_search = SEARCH_NONE`. -/
  | searchNone
  /-- The request id has been remembered long enough. -/
  | forgetRreqId

def Write.apply : Write → RoutingEntry → RoutingEntry
  | timer env ms, e => e.setExpirationTimer env.now ms
  | stopTimer, e => { e with expirationThread := false }
  | precursor ip, e => { e with precursorList := e.precursorList ++ [ip] }
  | searchNone, e => { e with rreqSearch := .searchNone }
  | forgetRreqId, e => { e with rreqId := 0, rreqIdSet := true, rreqIdThread := false }

/-! ### What the sections with a test leave

The deadline is left open: it depends on the clock, and nothing but the length of
a sleep depends on it.
-/

section Sections

variable (env : Env) (senderIp : U32) (new : Bool) (e : RoutingEntry)

theorem previousHop_eq (listed : U32) : ∃ t, e.previousHop env listed new =
    { e with
      status := .routeValid, nextHopFor := addIfAbsent e.nextHopFor listed
      timeOut := t, expirationThread := true } := by
  cases new with
  | false => exact ⟨_, rfl⟩
  | true => exact ⟨_, rfl⟩

theorem reverseRoute_accepted (m : RreqHeader) (h : new = true ∨ fresherReverse m e = true) :
    ∃ t, e.reverseRoute env senderIp m new =
      { e with
        rreqId := m.rreqId, rreqIdSet := true, rreqIdThread := true
        destSeq := m.srcSeq, seqValid := .seqValid
        nextHop := senderIp, hopCount := m.hopCount.setWidth 32
        status := .routeValid, timeOut := t, expirationThread := true } := by
  have h' : (new || fresherReverse m
      { e with rreqId := m.rreqId, rreqIdSet := true }.startRreqTimer) = true :=
    (Bool.or_eq_true _ _).mpr h
  simp only [RoutingEntry.reverseRoute, if_pos h']
  exact ⟨_, rfl⟩

theorem reverseRoute_refused (m : RreqHeader) (h : ¬ (new = true ∨ fresherReverse m e = true)) :
    ∃ t, e.reverseRoute env senderIp m new =
      { e with
        rreqId := m.rreqId, rreqIdSet := true, rreqIdThread := true
        status := .routeValid, timeOut := t, expirationThread := true } := by
  have h' : ¬ (new || fresherReverse m
      { e with rreqId := m.rreqId, rreqIdSet := true }.startRreqTimer) = true :=
    fun hor => h ((Bool.or_eq_true _ _).mp hor)
  simp only [RoutingEntry.reverseRoute, if_neg h']
  exact ⟨_, rfl⟩

/-- The test of the section for hellos. -/
def takesHello (m : RrepHeader) (new : Bool) (e : RoutingEntry) : Prop :=
  new = true ∨ e.seqValid = .seqInvalid ∨ seqCompare m.destSeq e.destSeq ≥ 0

instance (m : RrepHeader) (new : Bool) (e : RoutingEntry) : Decidable (takesHello m new e) :=
  inferInstanceAs (Decidable (_ ∨ _))

theorem hello_accepted (m : RrepHeader) (h : takesHello m new e) :
    ∃ t, e.hello env m new =
      { e with seqValid := .seqValid, destSeq := m.destSeq
               timeOut := t, expirationThread := true } := by
  have h' : (new || (e.seqValid = .seqInvalid : Bool) ||
      (seqCompare m.destSeq e.destSeq ≥ 0 : Bool)) = true := by
    rcases h with hnew | hseq | hcmp
    · rw [hnew]
      rfl
    · rw [decide_eq_true hseq, Bool.or_true]
      rfl
    · rw [decide_eq_true hcmp, Bool.or_true]
  exact ⟨_, if_pos h'⟩

theorem hello_refused (m : RrepHeader) (h : ¬ takesHello m new e) : e.hello env m new = e := by
  have h' : ¬ (new || (e.seqValid = .seqInvalid : Bool) ||
      (seqCompare m.destSeq e.destSeq ≥ 0 : Bool)) = true := by
    intro hor
    simp only [Bool.or_eq_true, decide_eq_true_eq, or_assoc] at hor
    exact h hor
  exact if_neg h'

theorem forwardRoute_accepted (m : RrepHeader) (h : new = true ∨ fresherForward m e = true) :
    ∃ t, e.forwardRoute env senderIp m new =
      { e with
        status := .routeValid, seqValid := .seqValid, nextHop := senderIp
        hopCount := m.hopCount.setWidth 32, destSeq := m.destSeq
        timeOut := t, expirationThread := true } := by
  have h' : (new || fresherForward m e) = true := (Bool.or_eq_true _ _).mpr h
  simp only [RoutingEntry.forwardRoute, if_pos h']
  exact ⟨_, rfl⟩

theorem forwardRoute_refused (m : RrepHeader) (h : ¬ (new = true ∨ fresherForward m e = true)) :
    ∃ t, e.forwardRoute env senderIp m new =
      { e with status := .routeValid, timeOut := t, expirationThread := true } := by
  have h' : ¬ (new || fresherForward m e) = true := fun hor => h ((Bool.or_eq_true _ _).mp hor)
  simp only [RoutingEntry.forwardRoute, if_neg h']
  exact ⟨_, rfl⟩

/-- What the sections that write a route leave alone. -/
structure RouteFrame (e e' : RoutingEntry) : Prop where
  destIp : e'.destIp = e.destIp
  precursorList : e'.precursorList = e.precursorList
  nextHopFor : e'.nextHopFor = e.nextHopFor
  rreqSearch : e'.rreqSearch = e.rreqSearch
  rreqMessageSender : e'.rreqMessageSender = e.rreqMessageSender
  activeRoute : e'.activeRoute = e.activeRoute

theorem reverseRoute_frame (m : RreqHeader) : RouteFrame e (e.reverseRoute env senderIp m new) := by
  by_cases hm : new = true ∨ fresherReverse m e = true
  · rcases reverseRoute_accepted env senderIp new e m hm with ⟨t, ht⟩
    rw [ht]
    exact ⟨rfl, rfl, rfl, rfl, rfl, rfl⟩
  · rcases reverseRoute_refused env senderIp new e m hm with ⟨t, ht⟩
    rw [ht]
    exact ⟨rfl, rfl, rfl, rfl, rfl, rfl⟩

theorem hello_frame (m : RrepHeader) : RouteFrame e (e.hello env m new) := by
  by_cases hm : takesHello m new e
  · rcases hello_accepted env new e m hm with ⟨t, ht⟩
    rw [ht]
    exact ⟨rfl, rfl, rfl, rfl, rfl, rfl⟩
  · rw [hello_refused env new e m hm]
    exact ⟨rfl, rfl, rfl, rfl, rfl, rfl⟩

theorem forwardRoute_frame (m : RrepHeader) : RouteFrame e (e.forwardRoute env senderIp m new) := by
  by_cases hm : new = true ∨ fresherForward m e = true
  · rcases forwardRoute_accepted env senderIp new e m hm with ⟨t, ht⟩
    rw [ht]
    exact ⟨rfl, rfl, rfl, rfl, rfl, rfl⟩
  · rcases forwardRoute_refused env senderIp new e m hm with ⟨t, ht⟩
    rw [ht]
    exact ⟨rfl, rfl, rfl, rfl, rfl, rfl⟩

/-- The reverse route is up and its timer runs, whether or not the request is taken. -/
theorem reverseRoute_up (m : RreqHeader) :
    (e.reverseRoute env senderIp m new).status = .routeValid ∧
      (e.reverseRoute env senderIp m new).expirationThread = true := by
  by_cases hm : new = true ∨ fresherReverse m e = true
  · rcases reverseRoute_accepted env senderIp new e m hm with ⟨t, ht⟩
    rw [ht]
    exact ⟨rfl, rfl⟩
  · rcases reverseRoute_refused env senderIp new e m hm with ⟨t, ht⟩
    rw [ht]
    exact ⟨rfl, rfl⟩

theorem forwardRoute_up (m : RrepHeader) :
    (e.forwardRoute env senderIp m new).status = .routeValid ∧
      (e.forwardRoute env senderIp m new).expirationThread = true := by
  by_cases hm : new = true ∨ fresherForward m e = true
  · rcases forwardRoute_accepted env senderIp new e m hm with ⟨t, ht⟩
    rw [ht]
    exact ⟨rfl, rfl⟩
  · rcases forwardRoute_refused env senderIp new e m hm with ⟨t, ht⟩
    rw [ht]
    exact ⟨rfl, rfl⟩

theorem activate_eq : e.activate = { e with activeRoute := if e.activeRoute = 0 then 1
    else e.activeRoute } := by
  unfold RoutingEntry.activate
  by_cases h : e.activeRoute = 0
  · rw [if_pos h, if_pos h]
  · rw [if_neg h, if_neg h]

end Sections

/-! ### The operations -/

inductive Op where
  /-- `create_or_get_routing_entry`. -/
  | create (env : Env) (destIp destSeq : U32) (validSeq : SeqValid)
      (nextHop hopCount timeOut : U32)
  | previousHop (env : Env) (senderIp listed : U32) (new : Bool)
  | reverseRoute (env : Env) (senderIp : U32) (m : RreqHeader) (new : Bool)
  | hello (env : Env) (m : RrepHeader) (new : Bool)
  | forwardRoute (env : Env) (senderIp : U32) (m : RrepHeader) (new : Bool)
  /-- The originator of the search publishes that it is over. -/
  | searchFound (destIp : U32)
  /-- The entry is counted as an active route. -/
  | activate (ip : U32)
  /-- A RERR breaks the route, with the number the RERR gives. -/
  | breakRoute (env : Env) (ip destSeq : U32)
  /-- A link break takes down a listed destination. -/
  | linkBreak (env : Env) (ip : U32)
  /-- An outgoing packet finds its next hop gone. -/
  | outgoingBreak (env : Env) (ip : U32)
  /-- The timer of a valid entry has run out. -/
  | expireRoute (env : Env) (ip : U32)
  /-- `free_entry(remove_routing_entry(routes, dest_ip))`. -/
  | removeEntry (ip : U32)
  /-- A plain write to the entry of an address. -/
  | write (ip : U32) (w : Write)
  /-- `send_rreq` creates its search thread. -/
  | startSearch (destAddr : U32)
  /-- `send_rreq` enters its waiting loop. -/
  | beginWait (destAddr : U32)
  /-- A waiting `send_rreq` moves on. -/
  | moveWaiter (k : Nat) (stage : WaitStage)
  /-- The hello thread moves on. -/
  | moveHello (stage : HelloStage)
  /-- The search thread takes the next own sequence number. -/
  | incrementSequenceNum
  | writeSequenceNum (seq : U32)
  /-- The search thread broadcasts its request under the next request id. -/
  | sendRreq (id : Nat) (rreq : RreqHeader) (ttl : BitVec 11) (stage : SearchStage)
  /-- The search thread gives up. -/
  | searchFailed (env : Env) (id : Nat) (destAddr : U32)
  | sendUnicast (dest : U32) (packet : Packet)
  | sendBroadcast (packet : Packet)

namespace Op

/-- The kernel calls of the forward-route section: two when the update test
    succeeds. -/
def addForwardRoute (m : RrepHeader) (senderIp : U32) (twice : Bool) (n : Node) : Node :=
  -- Without an update the kernel is still given the sender for the next hop.
  let n := if twice then n.call (.addUnicastRoutingEntry m.destIp senderIp) else n
  n.call (.addUnicastRoutingEntry m.destIp senderIp)

/-- Writes to the entry of an address, if there is one, and goes on with what the
    entry was. -/
def onEntry (ip : U32) (f : RoutingEntry → RoutingEntry) (rest : RoutingEntry → Node → Node)
    (n : Node) : Node :=
  match n.getRoutingEntry ip with
  | none => n
  | some e => rest e (n.updateEntry ip f)

def apply : Op → Node → Node
  | create env destIp destSeq validSeq nextHop hopCount timeOut, n =>
    n.createOrGetRoutingEntry env destIp destSeq validSeq nextHop hopCount timeOut
  | previousHop env senderIp listed new, n =>
    onEntry senderIp (RoutingEntry.previousHop env listed new)
      (fun _ n => n.call (.addUnicastRoutingEntry senderIp senderIp)) n
  | reverseRoute env senderIp m new, n =>
    onEntry m.srcIp (RoutingEntry.reverseRoute env senderIp m new)
      (fun e n => n.call (.addUnicastRoutingEntry e.destIp senderIp)) n
  | hello env m new, n => n.updateEntry m.destIp (RoutingEntry.hello env m new)
  | forwardRoute env senderIp m new, n =>
    onEntry m.destIp (RoutingEntry.forwardRoute env senderIp m new)
      (fun e => addForwardRoute m senderIp (new || fresherForward m e)) n
  | searchFound destIp, n =>
    onEntry destIp RoutingEntry.searchFound
      (fun e n => if e.rreqMessageSender ≠ 0 then n.pthreadCancel e.rreqMessageSender else n) n
  | activate ip, n =>
    onEntry ip RoutingEntry.activate
      (fun e n => if e.activeRoute = 0 then { n with activeRoutes := n.activeRoutes + 1 } else n) n
  | breakRoute env ip destSeq, n =>
    onEntry ip (RoutingEntry.breakRoute env destSeq)
      (fun e n => (n.call (.deleteEntry e.destIp e.nextHop)).releaseRoute e.activeRoute) n
  | linkBreak env ip, n =>
    onEntry ip (RoutingEntry.linkBreak env)
      (fun e n =>
        -- A route without precursors is not taken off the count.
        let n := if e.precursorList ≠ [] then n.releaseRoute e.activeRoute else n
        n.call (.deleteEntry e.destIp e.nextHop)) n
  | outgoingBreak env ip, n =>
    onEntry ip (RoutingEntry.outgoingBreak env)
      (fun e n =>
        let n := n.call (.deleteEntry e.destIp e.nextHop)
        if e.seqValid = .seqValid then n.releaseRoute e.activeRoute else n) n
  | expireRoute env ip, n =>
    onEntry ip (RoutingEntry.expireRoute env)
      (fun e n =>
        let n := n.call (.deleteEntry e.destIp e.nextHop)
        if e.seqValid = .seqValid then n.releaseRoute e.activeRoute else n) n
  | removeEntry ip, n =>
    match n.getRoutingEntry ip with
    | none => n
    | some e =>
      let n := { n with routes := n.routes.removeRoutingEntry e.destIp }
      if e.rreqMessageSender ≠ 0 then n.pthreadCancel e.rreqMessageSender else n
  | write ip w, n => n.updateEntry ip w.apply
  | startSearch destAddr, n =>
    let id := n.nextThread
    let n := n.updateEntry destAddr (RoutingEntry.startSearch id)
    { n with
      threads := n.threads ++ [{ id := id, dest := destAddr, stage := .starting }]
      nextThread := id + 1 }
  | beginWait destAddr, n =>
    { n with waiters := n.waiters ++ [{ dest := destAddr, stage := .waiting }] }
  | moveWaiter k stage, n =>
    { n with waiters := n.waiters.modify k fun w => { w with stage := stage } }
  | moveHello stage, n => { n with helloStage := stage }
  | incrementSequenceNum, n => { n with sequenceNum := n.sequenceNum + 1 }
  | writeSequenceNum seq, n => { n with sequenceNum := seq }
  | sendRreq id rreq ttl stage, n =>
    let rreq := { rreq with rreqId := n.rreqId + 1, ttl := ttl }
    ({ n with rreqId := n.rreqId + 1 }.moveThread id stage).call (.sendBroadcast (.rreq rreq))
  | searchFailed env id destAddr, n =>
    (n.updateEntry destAddr (RoutingEntry.searchFailed env)).pthreadCancel id
  | sendUnicast dest packet, n => n.call (.sendUnicast dest packet)
  | sendBroadcast packet, n => n.call (.sendBroadcast packet)

end Op

end OpenManet
