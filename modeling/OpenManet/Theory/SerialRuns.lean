import OpenManet.Theory.SerialTurns

/-!
# Serial Runs

Threads that take turns, each running alone until it pauses, do what the machine does.
A run of the machine is a list of inputs; a serial run of the threads is a list of
turns, and the inputs of the turns make the run of the machine. From start-up on, memory
and node stay alike after every turn, and every thread is left where the machine has it.

What has to be asked of a turn is that it can be taken: that there is such a thread, and
that the entry it keeps a pointer to is still the one in the table. The second is not
always so. An entry that is removed is freed under the feet of whoever waits for it or
searches for it under a stale id, and whoever goes on with it reads memory that is no
longer the table's; the machine looks the address up again.

## Main definitions

* `Turn`, `Turn.routine`, `Turn.events`: What runs, and what the machine makes of it.
* `Turn.Ready`: The turn can be taken.
* `Turn.GoesOn`: Where the thread is left.
* `Play`, `playStep`: A turn in its surroundings, taken on both sides.

## Theorems

* `play_agrees`: One turn keeps memory and node alike.
* `serial_runs_agree`: So does every serial run.
-/

namespace OpenManet

namespace Threads

/-- What takes its turn, and the entry it has its pointer to. -/
inductive Turn where
  | request (src : U32) (m : RreqHeader)
  | reply (src : U32) (m : RrepHeader)
  | data (src dest : U32)
  /-- A packet goes out that has no route. -/
  | packet (dest : U32)
  /-- The expiration timer of the entry wakes up. -/
  | expire (ip : U32) (p : Nat)
  | forget (ip : U32) (p : Nat)
  | search (t : SearchThread) (p : Nat)
  | wait (k : Nat) (dest : U32) (p : Nat)

namespace Turn

/-- The routine whose thread runs. -/
def routine : Turn → Routine
  | request src m => .call (.recvRreq src m)
  | reply src m => .call (.recvRrep src m)
  | data src _ => .call (.restartTimer src (fun _ e => e) (toU32 activeRouteTimeout))
  | packet dest => .call (.sendRreq dest)
  | expire _ p => .expirationFunc p
  | forget _ p => .rreqIdFunc p
  | search t p => headOf p t.stage
  | wait _ _ p => .waitLoop p

/-- What the machine makes of it. -/
def events : Turn → List Event
  | request src m => [.control src (.rreq m)]
  | reply src m => [.control src (.rrep m)]
  | data src dest => [.data src dest]
  | packet dest => [.outgoing dest]
  | expire ip _ => [.expire ip]
  | forget ip _ => [.rreqIdExpire ip]
  | search t _ => [.search t.id]
  | wait k _ _ => [.wait k, .wait k, .wait k]

/-- Calls are what the callbacks make of packets; a thread is there, and its entry is
    still in the table. -/
def Ready (s : Shared) (n : Node) : Turn → Prop
  | request src _ | reply src _ => src ≠ n.ipAddress
  | data _ dest => dest = n.ipAddress
  | packet dest => dest ≠ n.broadcastIp ∧ dest ≠ n.ipAddress ∧
      (n.getRoutingEntry dest).any (·.isActive) = false
  | expire ip p => s.find ip = some p ∧ s.threadOf .expiration p ≠ 0
  | forget ip p => s.find ip = some p ∧ s.threadOf .rreqId p ≠ 0
  | search t p => n.threadOf t.id = some t ∧ s.find t.dest = some p
  | wait k dest p => n.waiters[k]? = some ⟨dest, .waiting⟩ ∧ s.find dest = some p

/-- After its turn the thread is where the machine has it. -/
def GoesOn (n n' : Node) (after : Shared × Option Routine) : Turn → Prop
  | request _ _ | reply _ _ | data _ _ | forget _ _ => after.2 = none
  | packet dest =>
    (after.2 = none ∧ n'.waiters = n.waiters) ∨
      ∃ p, after.2 = some (.waitLoop p) ∧ after.1.find dest = some p ∧
        n'.waiters = n.waiters ++ [⟨dest, .waiting⟩]
  | expire ip p => after.2 = (n'.getRoutingEntry ip).map fun _ => .expirationFunc p
  | search t p => after.2 = (n'.threadOf t.id).map fun u => headOf p u.stage
  | wait k _ p => after.2 = if (n'.waiters[k]?).any hasReturned then none else some (.waitLoop p)

end Turn

/-- A turn in its surroundings. The threads it starts get ids, none of which is zero. -/
structure Play where
  env : Env
  ids : ThreadOp → Shared → Nat
  ids_ne_zero : ∀ o s, ids o s ≠ 0
  turn : Turn

def Play.inputs (play : Play) : List Input :=
  play.turn.events.map fun event => { env := play.env, event := event }

def Play.after (play : Play) (s : Shared) : Shared × Option Routine :=
  untilPause play.env play.ids play.turn.routine s

/-- Both models take the turn. -/
def playStep (c : Shared × Node) (play : Play) : Shared × Node :=
  ((play.after c.1).1, run step c.2 play.inputs)

section Steps

variable {env : Env} {ids : ThreadOp → Shared → Nat} {s : Shared} {n : Node}

/-- Packets for this node keep the route to where they come from alive. -/
theorem restartTimer_agrees (hids : ∀ o s, ids o s ≠ 0) (h : s.Shows n) (src dest : U32)
    (hdest : dest = n.ipAddress) :
    Agrees env ids Returned (restartTimer src (fun _ e => e) (toU32 activeRouteTimeout))
      (incomingDataMessage env src dest) s n := by
  refine agrees_read (agrees_readNode ?_)
  cases hp : s.find src with
  | none =>
      rw [h.missing hp, if_neg (fun hcase => Bool.false_ne_true hcase.2)]
      exact agrees_accept h
  | some p =>
      rcases h.found hp with ⟨sender, -, he⟩
      have g := h.globals
      rw [he, if_pos ⟨hdest, rfl⟩]
      refine agrees_lock (agrees_lockSlot ?_)
      refine setExpirationTimer_agrees hids p _ fun id hid => ⟨?_, rfl, _, rfl⟩
      refine h.update hp (Write.timer env (toU32 activeRouteTimeout)).apply (fun _ => rfl)
        (fun sender hnumbers _ => ⟨sender, ?_, ?_⟩) (fun q hq => ?_) rfl rfl rfl
        ⟨g.ipAddress, g.sequenceNum, g.rreqId, g.activeRoutes, g.log, g.started⟩
      · simp only [done, Prog.exec, alone, ThreadOp.apply, Shared.threadOf, setBlock_same]
        exact hnumbers
      · simp [done, Prog.exec, alone, ThreadOp.apply, Shared.threadOf, Shared.entry,
          EntryBlock.shown, Write.apply, RoutingEntry.setExpirationTimer, moveDeadline, hid]
      · simp only [done, Prog.exec, alone, ThreadOp.apply, setBlock_other _ _ _ _ hq]

theorem outgoing_searches (dest : U32) (hbroadcast : dest ≠ n.broadcastIp)
    (hown : dest ≠ n.ipAddress) (hinactive : (n.getRoutingEntry dest).any (·.isActive) = false) :
    (outgoingMessage env dest).exec Op.apply n = (OpenManet.sendRreq env dest).exec Op.apply n := by
  simp only [outgoingMessage, Prog.exec]
  rw [if_neg (fun hcase => hcase.elim hbroadcast hown)]
  cases he : n.getRoutingEntry dest with
  | none => rfl
  | some e =>
      rw [he] at hinactive
      have hdown : e.isActive = false := hinactive
      simp only [hdown, Bool.false_eq_true, false_and, if_false]

/-- A timer that runs out leaves the entry of a valid route, and no other. -/
theorem expirationFunc_entry (h : s.Shows n) {ip : U32} {p : Nat} (hp : s.find ip = some p)
    (htimer : s.threadOf .expiration p ≠ 0) (q : Nat) :
    (if n.isValid ip then some (.expirationFunc q) else none) =
      ((step n { env := env, event := .expire ip }).getRoutingEntry ip).map
        fun _ => Routine.expirationFunc q := by
  rcases h.found hp with ⟨sender, -, he⟩
  have hrunning : (n.getRoutingEntry ip).any (·.expirationThread) = true := by
    rw [he]
    exact decide_eq_true htimer
  show _ = ((((OpenManet.expirationFunc env ip).exec Op.apply n).1).getRoutingEntry ip).map _
  simp only [OpenManet.expirationFunc, Prog.exec, if_pos hrunning]
  cases n.isValid ip with
  | true =>
      rw [if_pos rfl, if_pos rfl]
      simp only [Prog.exec]
      rw [Node.getRoutingEntry_eq, apply_slots]
      simp only [Op.effect, Effect.slot, if_true]
      rw [show n.routes.slots (slotOf ip) = _ from he]
      rfl
  | false =>
      rw [if_neg Bool.false_ne_true, if_neg Bool.false_ne_true]
      simp only [Prog.exec]
      rw [Node.getRoutingEntry_eq, apply_slots]
      simp only [Op.effect, Effect.slot, if_true]
      rfl

end Steps

theorem play_agrees (s : Shared) (n : Node) (play : Play) (h : s.Shows n)
    (hready : play.turn.Ready s n) :
    (playStep (s, n) play).1.Shows (playStep (s, n) play).2 ∧
      play.turn.GoesOn n (playStep (s, n) play).2 (play.after s) := by
  rcases play with ⟨env, ids, hids, turn⟩
  cases turn with
  | request src m =>
      have hagrees : Agrees env ids Returned (recvRreq src m) (OpenManet.recvRreq env src m) s n :=
        recvRreq_agrees hids h src m
      have hexec : (playStep (s, n) ⟨env, ids, hids, .request src m⟩).2 =
          ((OpenManet.recvRreq env src m).exec Op.apply n).1 := by
        show ((incomingControlMessage env src (.rreq m)).exec Op.apply n).1 = _
        simp only [incomingControlMessage, Prog.exec, if_neg hready]
      rw [hexec]
      exact ⟨hagrees.1, hagrees.2.1⟩
  | reply src m =>
      have hagrees : Agrees env ids Returned (recvRrep src m) (OpenManet.recvRrep env src m) s n :=
        recvRrep_agrees hids h src m
      have hexec : (playStep (s, n) ⟨env, ids, hids, .reply src m⟩).2 =
          ((OpenManet.recvRrep env src m).exec Op.apply n).1 := by
        show ((incomingControlMessage env src (.rrep m)).exec Op.apply n).1 = _
        simp only [incomingControlMessage, Prog.exec, if_neg hready]
      rw [hexec]
      exact ⟨hagrees.1, hagrees.2.1⟩
  | data src dest =>
      have hagrees : Agrees env ids Returned _ (incomingDataMessage env src dest) s n :=
        restartTimer_agrees hids h src dest hready
      exact ⟨hagrees.1, hagrees.2.1⟩
  | packet dest =>
      rcases hready with ⟨hbroadcast, hown, hinactive⟩
      have hagrees : Agrees env ids Alike (sendRreq dest) (OpenManet.sendRreq env dest) s n :=
        sendRreq_agrees hids h dest
      have hexec : (playStep (s, n) ⟨env, ids, hids, .packet dest⟩).2 =
          ((OpenManet.sendRreq env dest).exec Op.apply n).1 := by
        show ((outgoingMessage env dest).exec Op.apply n).1 = _
        rw [outgoing_searches dest hbroadcast hown hinactive]
      rw [hexec]
      refine ⟨hagrees.1, ?_⟩
      have hends := hagrees.2
      rcases sendRreq_waiters dest n _ rfl with ⟨hreturns, hsame⟩ | ⟨hwaits, hmore⟩
      · exact Or.inl ⟨hends.mpr hreturns, hsame⟩
      · rcases sendRreq_waits dest _ rfl with hnone | ⟨p, hloop, hp⟩
        · rcases hends.mp hnone with ⟨v, hv⟩
          rw [hwaits] at hv
          cases hv
        · exact Or.inr ⟨p, hloop, hp, hmore⟩
  | expire ip p =>
      rcases expirationFunc_shows h hready.1 hready.2 with ⟨hshows, hends⟩
      refine ⟨hshows, ?_⟩
      show ((expirationFunc p).exec (alone env ids) s).2 = _
      rw [hends]
      exact expirationFunc_entry h hready.1 hready.2 p
  | forget ip p => exact rreqIdFunc_shows h hready.1 hready.2
  | search t p =>
      exact search_together hids h t hready.1 hready.2
  | wait k dest p =>
      exact waitLoop_together hids h hready.1 hready.2 _ rfl _ rfl

theorem run_playStep (s : Shared) (n : Node) (plays : List Play) :
    (run playStep (s, n) plays).2 = run step n (plays.flatMap Play.inputs) := by
  induction plays generalizing s n with
  | nil => rfl
  | cons play plays ih =>
      rw [run_cons, List.flatMap_cons, run_append]
      exact ih _ _

/-- Threads that take turns from start-up on, each running alone until it pauses, leave
    memory and node alike after every turn, and each thread where the machine has it: a
    handler has returned or waits, a search thread is at the head of its loop, and a
    timer goes on as long as its entry is in the table. -/
theorem serial_runs_agree (ip bcast : U32) (hello : Nat → Byte) (plays : List Play)
    (hready : AllSteps playStep (fun c play => play.turn.Ready c.1 c.2)
      (boot ip, Node.boot ip bcast hello) plays) :
    (run playStep (boot ip, Node.boot ip bcast hello) plays).1.Shows
        (run step (Node.boot ip bcast hello) (plays.flatMap Play.inputs)) ∧
      AllSteps playStep
        (fun c play => play.turn.GoesOn c.2 (playStep c play).2 (play.after c.1))
        (boot ip, Node.boot ip bcast hello) plays := by
  have hstep : ∀ c play, c.1.Shows c.2 → play.turn.Ready c.1 c.2 →
      (playStep c play).1.Shows (playStep c play).2 :=
    fun c play hc hplay => (play_agrees c.1 c.2 play hc hplay).1
  have hboot := boot_shows ip bcast hello
  refine ⟨?_, ?_⟩
  · rw [← run_playStep (boot ip) _ plays]
    exact run_invariant playStep _ (fun c => c.1.Shows c.2) hstep _ plays hboot hready
  · refine AllSteps.imp playStep ?_ _ plays (AllSteps.with_invariant playStep _
      (fun c => c.1.Shows c.2) hstep _ plays hboot hready)
    exact fun c play ⟨hplay, hc⟩ => (play_agrees c.1 c.2 play hc hplay).2

/-- Ids that grow with what has been recorded. -/
def Play.clear (turn : Turn) : Play :=
  { env := .clear, ids := fun _ s => s.log.length + 1
    ids_ne_zero := fun _ _ => Nat.succ_ne_zero _, turn := turn }

/-- A packet sets off a search; its thread asks once, a neighbour answers, and the packet
    is let go. -/
def packetServed : List Play :=
  [.clear (.packet 0x03000000), .clear (.search ⟨1, 0x03000000, .starting⟩ 0),
    .clear (.reply 0x02000000 { generateRrepMessage (fun _ => 0) 0 0x03000000 7 0x01000000
      (toU32 myRouteTimeout) with hopCount := 0 }),
    .clear (.wait 0 0x03000000 0)]

theorem serial_runs_agree_packet :
    (run playStep (boot 0x01000000, Node.boot 0x01000000 0xFFFFFFFF fun _ => 0)
      packetServed).1.Shows
      (run step (Node.boot 0x01000000 0xFFFFFFFF fun _ => 0)
        (packetServed.flatMap Play.inputs)) :=
  (serial_runs_agree 0x01000000 0xFFFFFFFF (fun _ => 0) packetServed
    ⟨⟨by decide, by decide, rfl⟩, ⟨rfl, rfl⟩, (by decide : (0x02000000 : U32) ≠ 0x01000000),
      ⟨rfl, rfl⟩, trivial⟩).1

end Threads

end OpenManet
