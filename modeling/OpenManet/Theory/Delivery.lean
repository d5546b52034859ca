import OpenManet.Theory.Discovery

/-!
# Packets Reach the Other End

What a discovery is good for. Once its messages have been delivered, a packet for one end
of the row is accepted by every node it comes to, without a call into the library, and
the kernel of each hands it to the next node of the row.

This lasts as long as the nodes of the row do nothing but pass on packets they have a
route for, exchange hellos, and run their searches: none of this touches a route in use.
What ends it is a message about a route, a packet without one, and the timer of an entry
that runs out. A forwarded packet whose source is in the slot of its destination is left
out: `forwarded_messages` locks the mutex of the one entry twice and never returns.

## Main definitions

* `Node.Forwards`: The node has all it takes to send packets for an address on.
* `Node.Accepts`, `Node.PassesOn`: What becomes of such a packet.
* `Event.Steady`: What leaves the routes in use alone.
* `Discovery.Open`: The row carries packets both ways.

## Theorems

* `Node.Forwards.passesOn`: A node with such a route passes packets on by it.
* `steady_forwards`: The routes in use are still there after a steady event.
* `Discovery.carries`: The row is open, and stays open.
-/

namespace OpenManet

/-- The node has an active route to `dest` over `gateway`, which is valid, too, and its
    kernel knows the route. -/
structure Node.Forwards (dest gateway : U32) (n : Node) : Prop where
  route : ∃ e, n.getRoutingEntry dest = some e ∧ e.isActive = true ∧ e.nextHop = gateway
  hop : n.isValid gateway = true
  kernel : kernelRoute n.log dest = some gateway

instance (dest gateway : U32) (n : Node) : Decidable (n.Forwards dest gateway) :=
  decidable_of_iff
    ((n.getRoutingEntry dest).any (fun e => e.isActive && e.nextHop = gateway) = true ∧
      n.isValid gateway = true ∧ kernelRoute n.log dest = some gateway)
    ⟨fun ⟨hroute, hhop, hkernel⟩ => ⟨by simpa [Option.any_eq_true] using hroute, hhop, hkernel⟩,
      fun h => ⟨by simpa [Option.any_eq_true] using h.route, h.hop, h.kernel⟩⟩

/-- The handler of a packet accepts it and calls nothing. -/
def Node.Accepts (h : Handler) (n : Node) : Prop :=
  (h.exec Op.apply n).2 = .returned .packetAccept ∧ (h.exec Op.apply n).1.log = n.log

/-- Packets for `dest` are accepted, and the kernel gives them to `gateway`. -/
structure Node.PassesOn (dest gateway : U32) (n : Node) : Prop where
  outgoing : ∀ env, n.Accepts (outgoingMessage env dest)
  forwarded : ∀ env src, slotOf src ≠ slotOf dest → n.Accepts (forwardedMessages env src dest)
  kernel : kernelRoute n.log dest = some gateway

/-- An event that leaves the routes in use alone: a packet for which there is a route, a
    hello, a packet that is for the node itself, or a round of a search, of a waiting call,
    of the timer of a request id, or of the hello thread. -/
def Event.Steady (n : Node) : Event → Prop
  | .control _ (.rrep m) => m.srcIp = 0
  | .outgoing dest => ∃ gateway, n.Forwards dest gateway
  | .forwarded src dest => slotOf src ≠ slotOf dest ∧ ∃ gateway, n.Forwards dest gateway
  | .data _ _ | .search _ | .wait _ | .rreqIdExpire _ | .hello => True
  | _ => False

/-! ### A packet with a route -/

theorem isActive_status {e : RoutingEntry} (h : e.isActive = true) : e.status = .routeValid := by
  simp only [RoutingEntry.isActive, Bool.and_eq_true, decide_eq_true_eq] at h
  exact h.1

theorem isValid_iff (n : Node) (ip : U32) :
    n.isValid ip = true ↔ ∃ e, n.getRoutingEntry ip = some e ∧ e.status = .routeValid := by
  unfold Node.isValid
  rw [Option.any_eq_true]
  simp only [decide_eq_true_eq]

theorem Node.Forwards.isValid {dest gateway : U32} {n : Node} (h : n.Forwards dest gateway) :
    n.isValid dest = true := by
  rcases h.route with ⟨e, he, hactive, -⟩
  exact (isValid_iff n dest).mpr ⟨e, he, isActive_status hactive⟩

/-- A route the table and the kernel have, over a neighbour that is valid. -/
theorem Node.HasRoute.forwards {dest gateway seq hops : U32} {n : Node}
    (h : n.HasRoute dest gateway seq hops) (hhop : n.isValid gateway = true) :
    n.Forwards dest gateway := by
  rcases h.table with ⟨e, he, hleads⟩
  have hroute := hleads.route
  simp only [RoutingEntry.route, Prod.mk.injEq] at hroute
  refine ⟨⟨e, he, ?_, hroute.2.2.2⟩, hhop, h.kernel⟩
  rw [RoutingEntry.isActive, hleads.status, hroute.1]
  rfl

/-- What a packet for the node itself does is to refresh the sender's timer. -/
theorem data_accepted (env : Env) (src dest : U32) (n : Node) :
    n.Accepts (incomingDataMessage env src dest) := by
  unfold Node.Accepts
  simp only [incomingDataMessage, Prog.exec]
  split <;> exact ⟨rfl, rfl⟩

section Packets

variable (env : Env) {dest gateway : U32} {n : Node} (h : n.Forwards dest gateway)

include h

theorem Node.Forwards.outgoing_accepted : n.Accepts (outgoingMessage env dest) := by
  rcases h.route with ⟨e, he, hactive, hhop⟩
  unfold Node.Accepts
  simp only [outgoingMessage, Prog.exec]
  by_cases hlocal : dest = n.broadcastIp ∨ dest = n.ipAddress
  · rw [if_pos hlocal]
    exact ⟨rfl, rfl⟩
  · rw [if_neg hlocal, he]
    simp only [hactive, true_and]
    by_cases hneighbour : e.nextHop = e.destIp
    · rw [if_pos hneighbour]
      exact ⟨rfl, rfl⟩
    · rw [if_neg hneighbour, hhop, if_pos h.hop]
      exact ⟨rfl, rfl⟩

/-- The handler of a forwarded packet comes to the branch that passes it on. -/
theorem Node.Forwards.forwarded_exec (src : U32) :
    (forwardedMessages env src dest).exec Op.apply n =
      (forwardedPass env src dest (n.getRoutingEntry src).isSome).exec Op.apply n := by
  rcases h.route with ⟨e, he, -, hhop⟩
  rcases (isValid_iff n gateway).mp h.hop with ⟨destHop, hfound, -⟩
  -- Whether the next hop is another entry decides on a mutex only.
  have hvalid : n.isValid dest = true ∧ n.isValid gateway = true := ⟨h.isValid, h.hop⟩
  simp only [forwardedMessages, Prog.exec, he, Option.isSome_some, if_true, hhop, hfound]
  split
  · simp only [forwardedOver, Prog.exec, if_pos hvalid, if_true]
  · simp only [forwardedOver, Prog.exec, if_pos hvalid, Bool.false_eq_true, if_false]

theorem Node.Forwards.forwarded_accepted (src : U32) :
    n.Accepts (forwardedMessages env src dest) := by
  unfold Node.Accepts
  rw [h.forwarded_exec env src]
  cases (n.getRoutingEntry src).isSome <;> exact ⟨rfl, rfl⟩

omit env in
theorem Node.Forwards.passesOn : n.PassesOn dest gateway :=
  ⟨fun env => h.outgoing_accepted env, fun env src _ => h.forwarded_accepted env src, h.kernel⟩

end Packets

/-! ### What leaves a route in use alone -/

/-- The operation neither takes a route down nor gives it another next hop. -/
def Op.SparesRoutes : Op → Prop
  | .create .. | .hello .. | .searchFound _ | .activate _ | .write _ _ | .startSearch _
  | .beginWait _ | .moveWaiter _ _ | .moveHello _ | .incrementSequenceNum | .writeSequenceNum _
  | .sendRreq .. | .searchFailed .. | .sendUnicast .. | .sendBroadcast _ => True
  | _ => False

/-- The route is as much in use as before, and whoever was listed as using it still is. -/
structure SparedEntry (e e' : RoutingEntry) : Prop where
  destIp : e'.destIp = e.destIp
  status : e'.status = e.status
  nextHop : e'.nextHop = e.nextHop
  seqValid : e.seqValid = .seqValid → e'.seqValid = .seqValid
  precursors : ∀ p ∈ e.precursorList, p ∈ e'.precursorList

theorem SparedEntry.refl (e : RoutingEntry) : SparedEntry e e :=
  ⟨rfl, rfl, rfl, id, fun _ hp => hp⟩

theorem hello_spares (env : Env) (m : RrepHeader) (new : Bool) (e : RoutingEntry) :
    SparedEntry e (e.hello env m new) := by
  by_cases hm : takesHello m new e
  · rcases hello_accepted env new e m hm with ⟨t, ht⟩
    rw [ht]
    exact ⟨rfl, rfl, rfl, fun _ => rfl, fun _ hp => hp⟩
  · rw [hello_refused env new e m hm]
    exact SparedEntry.refl e

theorem write_spares (w : Write) (e : RoutingEntry) : SparedEntry e (w.apply e) := by
  cases w with
  | precursor ip => exact ⟨rfl, rfl, rfl, id, fun _ hp => List.mem_append_left _ hp⟩
  | timer | stopTimer | searchNone | forgetRreqId => exact ⟨rfl, rfl, rfl, id, fun _ hp => hp⟩

theorem effect_spares (n : Node) (o : Op) (hspares : o.SparesRoutes) (ip : U32)
    (f : RoutingEntry → RoutingEntry) (heff : o.effect n = .update ip f) (e : RoutingEntry) :
    SparedEntry e (f e) := by
  cases o with
  | hello env m new =>
      cases heff
      exact hello_spares env m new e
  | write ip w =>
      cases heff
      exact write_spares w e
  | activate ip =>
      cases heff
      rw [activate_eq]
      exact ⟨rfl, rfl, rfl, id, fun _ hp => hp⟩
  | searchFound | startSearch | searchFailed =>
      cases heff
      exact ⟨rfl, rfl, rfl, id, fun _ hp => hp⟩
  | create | beginWait | moveWaiter | moveHello | incrementSequenceNum | writeSequenceNum | sendRreq
  | sendUnicast | sendBroadcast => cases heff
  | removeEntry | previousHop | reverseRoute | forwardRoute | breakRoute | linkBreak
  | outgoingBreak | expireRoute => exact absurd hspares id

/-- An entry is there after such an operation if it was before, and as much in use. -/
theorem spares_entry (n : Node) (o : Op) (hspares : o.SparesRoutes) (ip : U32) (e : RoutingEntry)
    (he : n.getRoutingEntry ip = some e) :
    ∃ e', (o.apply n).getRoutingEntry ip = some e' ∧ SparedEntry e e' := by
  rw [Node.getRoutingEntry_eq] at he
  rw [Node.getRoutingEntry_eq, apply_slots, he]
  cases heff : o.effect n with
  | keep => exact ⟨e, rfl, SparedEntry.refl e⟩
  | create entry =>
      refine ⟨e, ?_, SparedEntry.refl e⟩
      simp only [Effect.slot, Option.getD_some, ite_self]
  | remove ip' =>
      -- Only the removal of an entry has this effect.
      cases o with
      | removeEntry => exact absurd hspares id
      | _ => cases heff
  | update ip' f =>
      simp only [Effect.slot]
      split
      · exact ⟨f e, rfl, effect_spares n o hspares ip' f heff e⟩
      · exact ⟨e, rfl, SparedEntry.refl e⟩

/-- Nor does it ask the kernel for anything. -/
theorem spares_kernel (n : Node) (o : Op) (hspares : o.SparesRoutes) (d : U32) :
    kernelRoute (o.apply n).log d = kernelRoute n.log d := by
  rw [apply_log]
  cases o with
  | removeEntry | previousHop | reverseRoute | forwardRoute | breakRoute | linkBreak
  | outgoingBreak | expireRoute => exact absurd hspares id
  | _ => rfl

theorem spares_forwards (n : Node) (o : Op) (hspares : o.SparesRoutes) (dest gateway : U32)
    (h : n.Forwards dest gateway) : (o.apply n).Forwards dest gateway := by
  rcases h.route with ⟨e, he, hactive, hhop⟩
  rcases spares_entry n o hspares dest e he with ⟨e', he', hsame⟩
  rcases (isValid_iff n gateway).mp h.hop with ⟨g, hg, hvalid⟩
  rcases spares_entry n o hspares gateway g hg with ⟨g', hg', hgate⟩
  refine ⟨⟨e', he', ?_, hsame.nextHop.trans hhop⟩, ?_,
    (spares_kernel n o hspares dest).trans h.kernel⟩
  · simp only [RoutingEntry.isActive, Bool.and_eq_true, decide_eq_true_eq] at hactive ⊢
    exact ⟨hsame.status.trans hactive.1, hsame.seqValid hactive.2⟩
  · exact (isValid_iff _ gateway).mpr ⟨g', hg', hgate.status.trans hvalid⟩

/-! ### Steady events -/

/-- All operations of the handler spare the routes. -/
abbrev Handler.SparesRoutes (h : Handler) (n : Node) : Prop :=
  h.Meets Op.apply (fun o _ => o.SparesRoutes) n

/-- A hello makes a fresh entry at most. -/
theorem hello_handler_spares (env : Env) (s : U32) (m : RrepHeader) (hhello : m.srcIp = 0)
    (n : Node) : (recvRrep env s m).SparesRoutes n := by
  simp only [recvRrep, publishFound, if_pos hhello, recvHello, Handler.SparesRoutes, Prog.Meets]
  split
  · exact ⟨trivial, trivial, trivial, trivial⟩
  · exact ⟨trivial, trivial, trivial⟩

theorem Node.Forwards.outgoing_spares (env : Env) {dest gateway : U32} {n : Node}
    (h : n.Forwards dest gateway) : (outgoingMessage env dest).SparesRoutes n := by
  rcases h.route with ⟨e, he, hactive, hhop⟩
  simp only [outgoingMessage, Handler.SparesRoutes, Prog.Meets]
  split
  · trivial
  · simp only [he, hactive, true_and, hhop, h.hop, if_true]
    split
    · exact ⟨trivial, trivial⟩
    · trivial

theorem Node.Forwards.forwarded_spares (env : Env) (src : U32) {dest gateway : U32} {n : Node}
    (h : n.Forwards dest gateway) : (forwardedMessages env src dest).SparesRoutes n := by
  rcases h.route with ⟨e, he, -, hhop⟩
  rcases (isValid_iff n gateway).mp h.hop with ⟨destHop, hfound, -⟩
  have hvalid : n.isValid dest = true ∧ n.isValid gateway = true := ⟨h.isValid, h.hop⟩
  have hpass : (forwardedPass env src dest (n.getRoutingEntry src).isSome).SparesRoutes n := by
    cases (n.getRoutingEntry src).isSome with
    | false => exact ⟨trivial, trivial⟩
    | true => exact ⟨trivial, trivial, trivial⟩
  simp only [forwardedMessages, Handler.SparesRoutes, Prog.Meets, he, Option.isSome_some, if_true,
    hhop, hfound]
  split
  · simp only [forwardedOver, Prog.Meets, if_pos hvalid, if_true]
    exact hpass
  · simp only [forwardedOver, Prog.Meets, if_pos hvalid, Bool.false_eq_true, if_false]
    exact hpass

theorem waiterStep_spares (env : Env) (k : Nat) (n : Node) : (waiterStep env k).SparesRoutes n := by
  simp only [waiterStep, Handler.SparesRoutes, Prog.Meets]
  cases n.waiters[k]? with
  | none => trivial
  | some w =>
      simp only []
      split
      · split
        · trivial
        · exact ⟨trivial, trivial⟩
      · exact ⟨trivial, trivial, trivial⟩
      · split
        · exact ⟨trivial, trivial, trivial⟩
        · exact ⟨trivial, trivial, trivial⟩
      · trivial

theorem retryStep_spares (env : Env) (t : SearchThread) (rreq : RreqHeader) (i : Nat) (n : Node) :
    (retryStep env t rreq i).SparesRoutes n := by
  unfold retryStep
  split <;> exact ⟨trivial, trivial⟩

theorem ringStep_spares (env : Env) (t : SearchThread) (rreq : RreqHeader) (ttl : U32) (n : Node) :
    (ringStep env t rreq ttl).SparesRoutes n := by
  unfold ringStep
  split
  · exact ⟨trivial, trivial⟩
  · exact retryStep_spares env t rreq 0 n

theorem searchThreadStep_spares (env : Env) (id : Nat) (n : Node) :
    (searchThreadStep env id).SparesRoutes n := by
  simp only [searchThreadStep, Handler.SparesRoutes, Prog.Meets]
  cases n.threads.find? (fun t => t.id = id) with
  | none => trivial
  | some t =>
      simp only []
      cases t.stage with
      | starting =>
          refine ⟨trivial, ?_⟩
          simp only [Prog.Meets]
          cases (Op.incrementSequenceNum.apply n).getRoutingEntry t.dest with
          | none => trivial
          | some e => exact ringStep_spares env t _ _ _
      | ring rreq ttl => exact ringStep_spares env t rreq ttl n
      | retry rreq i => exact retryStep_spares env t rreq i n

/-- A steady event takes no route down and gives none another next hop. -/
theorem steady_spares (n : Node) (input : Input) (h : input.event.Steady n) :
    input.handler.SparesRoutes n := by
  rcases input with ⟨env, event⟩
  cases event with
  | control s message =>
      cases message with
      | rrep m =>
          simp only [Input.handler, incomingControlMessage, Handler.SparesRoutes, Prog.Meets]
          split
          · trivial
          · exact hello_handler_spares env s m h n
      | rreq | rerr => exact absurd h id
  | data src dest =>
      simp only [Input.handler, incomingDataMessage, Handler.SparesRoutes, Prog.Meets]
      split
      · exact ⟨trivial, trivial⟩
      · trivial
  | outgoing dest =>
      rcases h with ⟨gateway, hroute⟩
      exact hroute.outgoing_spares env
  | forwarded src dest =>
      rcases h with ⟨-, gateway, hroute⟩
      exact hroute.forwarded_spares env src
  | search id => exact searchThreadStep_spares env id n
  | wait k => exact waiterStep_spares env k n
  | expire ip => exact absurd h id
  | rreqIdExpire ip =>
      simp only [Input.handler, rreqIdFunc, Handler.SparesRoutes, Prog.Meets]
      split
      · exact ⟨trivial, trivial⟩
      · trivial
  | hello =>
      simp only [Input.handler, helloInterval, Handler.SparesRoutes, Prog.Meets]
      cases n.helloStage with
      | spinning =>
          simp only []
          split
          · trivial
          · exact ⟨trivial, trivial⟩
      | sleeping => exact ⟨trivial, trivial, trivial⟩

theorem steady_forwards (n : Node) (input : Input) (h : input.event.Steady n) (dest gateway : U32)
    (hroute : n.Forwards dest gateway) : (step n input).Forwards dest gateway :=
  Prog.exec_invariant Op.apply (fun o _ => o.SparesRoutes) (Node.Forwards dest gateway)
    (fun o n hn ho => spares_forwards n o ho dest gateway hn) input.handler n hroute
    (steady_spares n input h)

/-! ### The row -/

namespace Discovery

variable {ι : Type} (x : Discovery ι)

/-- What the nodes of the row do is steady. The others may do anything. -/
def Steady (net : Network ι) (a : NetInput ι) : Prop :=
  ∀ i ≤ x.relays + 1, a.node = x.node i → a.input.event.Steady (net a.node)

/-- Every node of the row passes packets for either end on to its neighbour, and each end
    takes what is for it. -/
structure Open (net : Network ι) : Prop where
  addresses : ∀ i ≤ x.relays + 1, (net (x.node i)).ipAddress = x.address i
  ahead : ∀ i ≤ x.relays,
    (net (x.node i)).PassesOn (x.address (x.relays + 1)) (x.address (i + 1))
  back : ∀ i ≤ x.relays, (net (x.node (i + 1))).PassesOn (x.address 0) (x.address i)
  ends : ∀ env src, (net (x.node (x.relays + 1))).Accepts
      (incomingDataMessage env src (x.address (x.relays + 1))) ∧
    (net (x.node 0)).Accepts (incomingDataMessage env src (x.address 0))

/-- What the deliveries leave is all it takes. -/
theorem Established.forwards {net : Network ι} (h : x.Established net) (i : Nat)
    (hi : i ≤ x.relays) :
    (net (x.node i)).Forwards (x.address (x.relays + 1)) (x.address (i + 1)) ∧
      (net (x.node (i + 1))).Forwards (x.address 0) (x.address i) :=
  ⟨(h.ahead i hi).forwards (h.neighbours i hi).1, (h.back i hi).forwards (h.neighbours i hi).2⟩

/-- The row is open once the request and its reply have been delivered, and as long as
    its nodes keep to packets they have a route for, hellos, their own searches, and the
    timers of request ids. -/
theorem carries [DecidableEq ι] (x : Discovery ι) (h : x.Ready) (inputs later : List (NetInput ι))
    (hd : x.Delivers inputs)
    (hsteady : AllSteps netStep x.Steady (run netStep x.net inputs) later) :
    x.Open (run netStep x.net (inputs ++ later)) := by
  have hforwards := (h.establishes inputs hd).forwards
  have hkept : ∀ i ≤ x.relays + 1, ∀ dest gateway,
      (run netStep x.net inputs (x.node i)).Forwards dest gateway →
      (run netStep x.net (inputs ++ later) (x.node i)).Forwards dest gateway := by
    intro i hi dest gateway hroute
    rw [run_append]
    exact network_invariant x.Steady (Node.Forwards dest gateway) (x.node i)
      (fun net a ha hn hok => steady_forwards _ a.input (ha ▸ hok i hi ha) dest gateway hn) _ later
      hroute hsteady
  exact
    { addresses := fun i hi => (run_ipAddress x.net _).trans (h.addresses i hi)
      ahead := fun i hi => (hkept i (by omega) _ _ (hforwards i hi).1).passesOn
      back := fun i hi => (hkept (i + 1) (by omega) _ _ (hforwards i hi).2).passesOn
      ends := fun env src => ⟨data_accepted env src _ _, data_accepted env src _ _⟩ }

end Discovery

/-- The first of the three nodes sends a packet to the third, which is passed on and
    arrives; the second says hello to the first, and the third sends a packet back. -/
def packetsBothWays : List (NetInput (Fin 3)) :=
  [⟨Row.first, { env := .clear, event := .outgoing 0x03000000 }⟩,
    ⟨Row.middle, { env := .clear, event := .forwarded 0x01000000 0x03000000 }⟩,
    ⟨Row.last, { env := .clear, event := .data 0x01000000 0x03000000 }⟩,
    ⟨Row.first, receive 0x02000000 (replyAfter 0 0x02000000 0 0)⟩,
    ⟨Row.last, { env := .clear, event := .outgoing 0x01000000 }⟩]

theorem carries_packetsBothWays :
    secondRing.Open (run netStep secondRing.net (secondRing.schedule ++ packetsBothWays)) := by
  refine secondRing.carries secondRing_ready secondRing.schedule packetsBothWays
    secondRing_ready.schedule_delivers ?_
  refine ⟨fun _ _ _ => ⟨0x02000000, ?_⟩, fun _ _ _ => ⟨?_, 0x03000000, ?_⟩,
    fun _ _ _ => trivial, fun _ _ _ => ?_, fun _ _ _ => ⟨0x02000000, ?_⟩, trivial⟩
  · decide
  · decide
  · decide
  · exact rfl
  · decide

end OpenManet
