import OpenManet.Theory.Distances
import OpenManet.Theory.SlotSharing

/-!
# Where Routes End

A node makes a route for the sender of a message, for the originator of a request and for
the destination of a reply, and asks nobody whether there is such a node. That there is
one follows from who sends what: requests are about the node that asks, a reply is first
sent by its destination or by a node that has a valid route to it, and what is passed on
keeps these addresses. So every route of every node ends at a node of the network, as long
as messages are what nodes have sent.

This needs the table to tell addresses apart. An entry for an address nobody has, made for
a packet to it, may lie in the slot of a neighbour's address, and the next message from
that neighbour makes it a valid route. So nobody is to send packets to an address that
shares its slot with another node's.

## Main definitions

* `Apart`: An address in whose slot there is no other node.
* `KnowsNodes`: What a node stores and has sent is about nodes.
* `LooksApart`: Packets are sent to such addresses only.

## Theorems

* `effect_raises`: Which operations make a route valid.
* `knowsNodes_step`: A step keeps to the nodes.
* `routes_lead_to_nodes`: Every route ends at a node of the network.
-/

namespace OpenManet

section Sound

variable (nodes : U32 → Prop)

/-- No node with another address has the slot of this one. -/
def Apart (ip : U32) : Prop := ∀ a, nodes a → slotOf a = slotOf ip → a = ip

/-- The entry keeps no node out of its slot, and a route that is up is one to a node. -/
def RoutingEntry.LeadsToNode (e : RoutingEntry) : Prop :=
  Apart nodes e.destIp ∧ (e.status = .routeValid → nodes e.destIp)

/-- The packet leads to routes that end at nodes. -/
def Packet.AboutNodes : Packet → Prop
  | rreq m => nodes m.srcIp ∧ Apart nodes m.destIp
  | rrep m _ => nodes m.destIp
  | rerr _ _ | null _ | timing => True

def ApiCall.AboutNodes : ApiCall → Prop
  | addUnicastRoutingEntry dest _ => nodes dest
  | deleteEntry _ _ => True
  | sendUnicast _ packet | sendBroadcast packet => packet.AboutNodes nodes

/-- The request of a search thread is the node's own. -/
def SearchThread.AsksApart (ip : U32) (t : SearchThread) : Prop :=
  match t.stage with
  | .starting => True
  | .ring rreq _ | .retry rreq _ => rreq.srcIp = ip ∧ Apart nodes rreq.destIp

/-- What the node stores and has sent is about nodes. -/
structure KnowsNodes (n : Node) : Prop where
  entries : n.Entries (RoutingEntry.LeadsToNode nodes)
  threads : ∀ t ∈ n.threads, t.AsksApart nodes n.ipAddress
  calls : ∀ c ∈ n.log, c.AboutNodes nodes

/-- The event brings a node with this address nothing but what is about nodes. -/
structure HeardOfNodes (event : Event) (ip : U32) : Prop where
  distinct : ∀ a b, nodes a → nodes b → slotOf a = slotOf b → a = b
  self : nodes ip
  sender : ∀ s message, event = .control s message → nodes s
  rreq : ∀ s m, event = .control s (.rreq m) → nodes m.srcIp ∧ Apart nodes m.destIp
  rrep : ∀ s m, event = .control s (.rrep m) → nodes m.destIp
  outgoing : ∀ dest, event = .outgoing dest → Apart nodes dest

/-- Entries are made for such addresses only. -/
def Op.MakesApart : Op → Prop
  | create _ destIp _ _ _ _ _ => Apart nodes destIp
  | _ => True

end Sound

/-! ### The handlers -/

section Handlers

variable {nodes : U32 → Prop} {event : Event} {ip : U32}

theorem HeardOfNodes.apart (h : HeardOfNodes nodes event ip) (a : U32) (ha : nodes a) :
    Apart nodes a :=
  fun b hb hslot => h.distinct b a hb ha hslot

/-- An event that names such addresses only makes entries for them. -/
theorem makesApart_of_writesFor (names : List U32) (hnames : ∀ a ∈ names, Apart nodes a) (o : Op)
    (n : Node) (h : o.WritesFor names n) : o.MakesApart nodes := by
  cases o with
  | create env destIp => exact hnames destIp h
  | _ => trivial

theorem makesApart_of_guard (hinstalls : event.installs = false) (o : Op) (n : Node)
    (hguard : o.Guard event n) : o.MakesApart nodes := by
  cases o with
  | create =>
      rw [hguard.1] at hinstalls
      cases hinstalls
  | _ => trivial

theorem makesApart_of_follows (o : Op) (hfollows : o.FollowsRoute) : o.MakesApart nodes := by
  cases o with
  | create => exact absurd hfollows id
  | _ => trivial

/-- A reply makes entries for its sender and its destination; the originator it names is
    looked up only. -/
theorem recvRrep_makesApart (env : Env) (s : U32) (m : RrepHeader) (hs : Apart nodes s)
    (hdest : Apart nodes m.destIp) (n : Node) :
    (recvRrep env s m).Meets Op.apply (fun o _ => o.MakesApart nodes) n := by
  have hrest : ∀ n : Node, Prog.Meets Op.apply (fun o _ => o.MakesApart nodes)
      (if m.srcIp = 0 then recvHello env s (incrementHopRrep m)
        else previousHopSection env s m.destIp
          (installForwardRoute env s (incrementHopRrep m))) n := by
    intro n
    split
    · exact ⟨hdest, trivial, trivial⟩
    · exact ⟨hs, trivial, hdest, trivial, Prog.Meets.imp
        (fun o n hfollows => makesApart_of_follows o hfollows) _ _ (afterForwardRoute_follows _ _)⟩
  simp only [recvRrep, publishFound, Prog.Meets]
  split
  · exact ⟨trivial, hrest _⟩
  · exact hrest n

theorem handler_makesApart (n : Node) (input : Input)
    (hheard : HeardOfNodes nodes input.event ip) :
    OpsMeet (fun o _ => o.MakesApart nodes) n input := by
  have hquiet : input.event.installs = false →
      OpsMeet (fun o _ => o.MakesApart nodes) n input := fun hinstalls =>
    Prog.Meets.imp (fun o n hguard => makesApart_of_guard hinstalls o n hguard) _ n
      (handler_guard n input)
  rcases input with ⟨env, event⟩
  cases event with
  | control s message =>
      have hs := hheard.apart s (hheard.sender s message rfl)
      cases message with
      | rreq m =>
          rcases hheard.rreq s m rfl with ⟨hsrc, hdest⟩
          refine Prog.Meets.imp (fun o n h => makesApart_of_writesFor _ ?_ o n h) _ n
            (control_writesFor n env s (.rreq m))
          intro a ha
          simp only [Event.names, ControlMessage.addresses, List.mem_cons, List.not_mem_nil,
            or_false] at ha
          rcases ha with rfl | rfl | rfl
          · exact hs
          · exact hheard.apart _ hsrc
          · exact hdest
      | rrep m =>
          exact incomingControlMessage_meets n env s _ (.rrep m) fun _ =>
            recvRrep_makesApart env s m hs (hheard.apart _ (hheard.rrep s m rfl)) n
      | rerr => exact hquiet rfl
  | outgoing dest =>
      refine Prog.Meets.imp (fun o n h => makesApart_of_writesFor _ ?_ o n h) _ n
        (outgoing_writesFor n env dest)
      intro a ha
      rw [List.mem_singleton.mp ha]
      exact hheard.outgoing dest rfl
  | data | forwarded | search | wait | expire | rreqIdExpire | hello => exact hquiet rfl

end Handlers

/-! ### What an operation leaves -/

/-- The operation makes the route to the address valid. -/
def Op.Raises (ip : U32) : Op → Prop
  | previousHop _ senderIp _ _ => senderIp = ip
  | reverseRoute _ _ m _ => m.srcIp = ip
  | forwardRoute _ _ m _ => m.destIp = ip
  | _ => False

/-- A route that is valid was so before, or has just been made by a message. -/
theorem effect_raises (n : Node) (o : Op) (ip : U32) (f : RoutingEntry → RoutingEntry)
    (heff : o.effect n = .update ip f) (e : RoutingEntry) (hvalid : (f e).status = .routeValid) :
    e.status = .routeValid ∨ o.Raises ip := by
  cases o with
  | previousHop | reverseRoute | forwardRoute =>
      cases heff
      exact Or.inr rfl
  | hello env m new =>
      cases heff
      left
      by_cases hm : takesHello m new e
      · rcases hello_accepted env new e m hm with ⟨t, ht⟩
        rw [ht] at hvalid
        exact hvalid
      · rw [hello_refused env new e m hm] at hvalid
        exact hvalid
  | activate =>
      cases heff
      rw [activate_eq] at hvalid
      exact Or.inl hvalid
  | write ip w =>
      cases heff
      cases w <;> exact Or.inl hvalid
  | searchFound | startSearch | searchFailed =>
      cases heff
      exact Or.inl hvalid
  | breakRoute | linkBreak | outgoingBreak | expireRoute =>
      cases heff
      cases hvalid
  | create | removeEntry | beginWait | moveWaiter | moveHello | incrementSequenceNum
  | writeSequenceNum | sendRreq | sendUnicast | sendBroadcast => cases heff

section Apply

variable {nodes : U32 → Prop} {event : Event} {n : Node}

/-- Only the routes to nodes are made valid. -/
theorem raises_node (o : Op) (ip own : U32) (hguard : o.Guard event n)
    (hheard : HeardOfNodes nodes event own) (h : o.Raises ip) : nodes ip := by
  cases o with
  | previousHop env s listed new =>
      rcases h with rfl
      rcases hguard.1 with ⟨m, hevent, -⟩ | ⟨m, hevent, -⟩
      · exact hheard.sender _ _ hevent
      · exact hheard.sender _ _ hevent
  | reverseRoute env s m new =>
      rcases h with rfl
      rcases hguard.1 with ⟨m₀, hevent, rfl⟩
      exact (hheard.rreq s m₀ hevent).1
  | forwardRoute env s m new =>
      rcases h with rfl
      rcases hguard.1 with ⟨m₀, hevent, rfl⟩
      exact hheard.rrep s m₀ hevent
  | _ => exact absurd h id

/-- The entry found for a node's address is that node's. -/
theorem KnowsNodes.destIp_eq (hn : n.Entries (RoutingEntry.LeadsToNode nodes)) (ip : U32)
    (hip : nodes ip) (e : RoutingEntry) (he : n.getRoutingEntry ip = some e) : ip = e.destIp :=
  (hn _ e he).1 ip hip (n.routes.keyed _ e he).symm

theorem leadsToNode_apply (o : Op) (hn : n.Entries (RoutingEntry.LeadsToNode nodes)) (own : U32)
    (hguard : o.Guard event n) (hmakes : o.MakesApart nodes)
    (hheard : HeardOfNodes nodes event own) :
    (o.apply n).Entries (RoutingEntry.LeadsToNode nodes) := by
  intro i e' he'
  rcases entry_origin n o i e' he' with hfresh | hold | ⟨ip, f, e, heff, hslot, he, rfl⟩
  · -- A fresh entry is not valid.
    cases o with
    | create =>
        cases hfresh
        exact ⟨hmakes, fun hvalid => by cases hvalid⟩
    | _ => cases hfresh
  · exact hn i e' hold
  · have hkeeps := effect_keeps n o ip f heff e
    unfold RoutingEntry.LeadsToNode
    rw [hkeeps]
    refine ⟨(hn i e he).1, fun hvalid => ?_⟩
    rcases effect_raises n o ip f heff e hvalid with hbefore | hraises
    · exact (hn i e he).2 hbefore
    · have hnode := raises_node o ip own hguard hheard hraises
      have hfound : n.getRoutingEntry ip = some e := by
        rw [Node.getRoutingEntry_eq, ← hslot]
        exact he
      rw [← KnowsNodes.destIp_eq hn ip hnode e hfound]
      exact hnode

/-- What a thread is about to ask, it asks as the node. -/
theorem asks_apart (hn : KnowsNodes nodes n) (t : SearchThread) (ht : t ∈ n.threads)
    (rreq : RreqHeader) (ttl : BitVec 11) (stage : SearchStage) (h : t.Asks n rreq ttl stage) :
    (rreq.srcIp = n.ipAddress ∧ Apart nodes rreq.destIp) ∧
      { t with stage := stage }.AsksApart nodes n.ipAddress := by
  have hasks := hn.threads t ht
  unfold SearchThread.AsksApart at hasks
  cases h with
  | ring ttl hle hstage =>
      have hown : rreq.srcIp = n.ipAddress ∧ Apart nodes rreq.destIp := by
        rcases hstage with hstage | ⟨-, e, he, rfl, -⟩
        · rw [hstage] at hasks
          exact hasks
        · exact ⟨rfl, (hn.entries _ e he).1⟩
      exact ⟨hown, hown⟩
  | retry i hstage =>
      have hown : rreq.srcIp = n.ipAddress ∧ Apart nodes rreq.destIp := by
        rcases hstage with hstage | ⟨ttl, hstage⟩ | ⟨-, e, he, rfl⟩
        · rw [hstage] at hasks
          exact hasks
        · rw [hstage] at hasks
          exact hasks
        · exact ⟨rfl, (hn.entries _ e he).1⟩
      exact ⟨hown, hown⟩

/-- What an operation calls and sends is about nodes. -/
theorem calls_aboutNodes (o : Op) (hn : KnowsNodes nodes n) (hguard : o.Guard event n)
    (hheard : HeardOfNodes nodes event n.ipAddress) :
    ∀ c ∈ o.calls n, c.AboutNodes nodes := by
  intro c hc
  have hraises := fun ip => raises_node o ip n.ipAddress hguard hheard
  cases o with
  | previousHop env s listed new =>
      simp only [Op.calls, Node.whenFound] at hc
      split at hc
      · exact absurd hc List.not_mem_nil
      · rw [List.mem_singleton.mp hc]
        exact hraises s rfl
  | reverseRoute env s m new =>
      simp only [Op.calls, Node.whenFound] at hc
      split at hc
      · exact absurd hc List.not_mem_nil
      · -- The kernel is given the address of the entry, which is the originator's.
        rename_i e he
        rw [List.mem_singleton.mp hc]
        have hnode := hraises m.srcIp rfl
        have hsame := KnowsNodes.destIp_eq hn.entries m.srcIp hnode e he
        exact hsame ▸ hnode
  | forwardRoute env s m new =>
      have hnode := hraises m.destIp rfl
      simp only [Op.calls, Node.whenFound] at hc
      split at hc
      · exact absurd hc List.not_mem_nil
      · split at hc
        · simp only [List.mem_cons, List.not_mem_nil, or_false, or_self] at hc
          rw [hc]
          exact hnode
        · rw [List.mem_singleton.mp hc]
          exact hnode
  | breakRoute | linkBreak | outgoingBreak | expireRoute =>
      simp only [Op.calls, Node.whenFound] at hc
      split at hc
      · exact absurd hc List.not_mem_nil
      · rw [List.mem_singleton.mp hc]
        trivial
  | sendRreq id rreq ttl stage =>
      rcases List.mem_singleton.mp hc with rfl
      rcases hguard with ⟨-, t, ht, -, hasks⟩
      rcases (asks_apart hn t ht rreq ttl stage hasks).1 with ⟨hown, hdest⟩
      refine ⟨?_, hdest⟩
      show nodes rreq.srcIp
      rw [hown]
      exact hheard.self
  | sendUnicast dest packet =>
      rcases List.mem_singleton.mp hc with rfl
      cases hguard with
      | ownReply => exact hheard.self
      | tableReply env m e hevent hother hfound hanswers =>
          -- The route the answer is about is valid, so it ends at a node.
          have hvalid : e.status = .routeValid := by
            simp only [answersFromTable, Bool.and_eq_true, decide_eq_true_eq] at hanswers
            exact hanswers.1.1.2
          have hnode := (hn.entries _ e hfound).2 hvalid
          have hsame := (hheard.rreq dest m hevent).2 e.destIp hnode (n.routes.keyed _ e hfound)
          show nodes m.destIp
          rw [← hsame]
          exact hnode
      | gratuitousReply env s m hevent => exact (hheard.rreq s m hevent).1
      | passedOn s m hevent => exact hheard.rrep s m hevent
      | error | noError | timing => trivial
  | sendBroadcast packet =>
      rcases List.mem_singleton.mp hc with rfl
      cases hguard with
      | request s m hevent =>
          rcases hheard.rreq s m hevent with ⟨hsrc, hdest⟩
          rcases forwardedRreq_addresses (incrementHopRreq m) (n.getRoutingEntry m.destIp)
            with ⟨hsrc', hdest'⟩
          simp only [ApiCall.AboutNodes, Packet.AboutNodes, hsrc', hdest']
          exact ⟨hsrc, hdest⟩
      | hello => exact hheard.self
      | error | noError => trivial
  | create | hello | searchFound | activate | removeEntry | write | startSearch | beginWait
  | moveWaiter | moveHello | incrementSequenceNum | writeSequenceNum | searchFailed =>
      exact absurd hc List.not_mem_nil

theorem knowsNodes_apply (o : Op) (hn : KnowsNodes nodes n) (hguard : o.Guard event n)
    (hmakes : o.MakesApart nodes) (hheard : HeardOfNodes nodes event n.ipAddress) :
    KnowsNodes nodes (o.apply n) where
  entries := leadsToNode_apply o hn.entries n.ipAddress hguard hmakes hheard
  threads := by
    intro t ht
    rw [apply_ipAddress]
    rcases apply_threads n o t ht with hold | ⟨dest, -, rfl⟩ | ⟨t₀, -, rreq, ttl, rfl, -, -⟩
    · exact hn.threads t hold
    · trivial
    · rcases hguard with ⟨-, t₁, ht₁, -, hasks⟩
      exact (asks_apart hn t₁ ht₁ rreq ttl t.stage hasks).2
  calls := by
    intro c hc
    rw [apply_log] at hc
    rcases List.mem_append.mp hc with hnew | hold
    · exact calls_aboutNodes o hn hguard hheard c hnew
    · exact hn.calls c hold

theorem knowsNodes_step (input : Input) (hn : KnowsNodes nodes n)
    (hheard : HeardOfNodes nodes input.event n.ipAddress) : KnowsNodes nodes (step n input) := by
  have hmeets := (handler_guard n input).and _ _ (handler_makesApart n input hheard)
  refine (Prog.exec_invariant Op.apply _
    (fun n' => KnowsNodes nodes n' ∧ n'.ipAddress = n.ipAddress) ?_ input.handler n
    ⟨hn, rfl⟩ hmeets).1
  rintro o n' ⟨hn', hip⟩ ⟨hguard, hmakes⟩
  rw [← hip] at hheard
  refine ⟨knowsNodes_apply o hn' hguard hmakes hheard, ?_⟩
  rw [apply_ipAddress, hip]

end Apply

/-! ### The network -/

section Network

variable {ι : Type}

/-- Nobody sends a packet to an address that has another node's slot. -/
def LooksApart (net : Network ι) (a : NetInput ι) : Prop :=
  match a.input.event with
  | .outgoing dest => Apart net.HasAddress dest
  | _ => True

theorem carried_of_overLinks (links : ι → ι → Prop) (net : Network ι) (a : NetInput ι)
    (h : OverLinks links net a) : Carried net a := by
  rcases a with ⟨node, env, event⟩
  cases event with
  | control s message =>
      rcases h with ⟨i, packet, -, hs, hcarries, hsent⟩
      exact ⟨i, packet, hs, hcarries, hsent⟩
  | data | outgoing | forwarded | search | wait | expire | rreqIdExpire | hello => trivial

/-- Every node of the network stores and has sent what is about its nodes. -/
def Network.KnowsNodes (net : Network ι) : Prop :=
  ∀ i, OpenManet.KnowsNodes net.HasAddress (net i)

theorem Network.knowsNodes_start (net : Network ι) (hstart : NetworkStart net) :
    net.KnowsNodes := by
  intro i
  rcases hstart.boot i with ⟨ip, bcast, hello, hnode⟩
  rw [hnode]
  exact ⟨fun k e he => absurd he (Node.boot_slots_ne ip bcast hello k e),
    fun t ht => absurd ht List.not_mem_nil, fun c hc => absurd hc List.not_mem_nil⟩

/-- What arrives has been sent by a node, and so is about nodes. -/
theorem heardOfNodes_of_carried (net : Network ι)
    (hdistinct : Function.Injective fun i => slotOf (net i).ipAddress) (a : NetInput ι)
    (h : net.KnowsNodes) (hcarried : Carried net a) (hlooks : LooksApart net a) :
    HeardOfNodes net.HasAddress a.input.event (net a.node).ipAddress := by
  have hfrom : ∀ s message, a.input.event = .control s message → net.HasAddress s ∧
      ∃ packet : Packet, packet.Carries message ∧ packet.AboutNodes net.HasAddress := by
    intro s message hevent
    unfold Carried at hcarried
    rw [hevent] at hcarried
    rcases hcarried with ⟨i, packet, hs, hcarries, hsent⟩
    refine ⟨⟨i, hs⟩, packet, hcarries, ?_⟩
    rcases hsent with hsent | hsent
    · exact (h i).calls _ hsent
    · exact (h i).calls _ hsent
  refine
    { distinct := ?_
      self := ⟨a.node, rfl⟩
      sender := fun s message hevent => (hfrom s message hevent).1
      rreq := ?_
      rrep := ?_
      outgoing := ?_ }
  · rintro _ _ ⟨i, rfl⟩ ⟨j, rfl⟩ hslot
    rw [hdistinct hslot]
  · intro s m hevent
    rcases (hfrom s _ hevent).2 with ⟨packet, hcarries, habout⟩
    cases packet with
    | rreq m' =>
        rw [show m' = m from hcarries] at habout
        exact habout
    | rrep | rerr | null | timing => exact absurd hcarries id
  · intro s m hevent
    rcases (hfrom s _ hevent).2 with ⟨packet, hcarries, habout⟩
    cases packet with
    | rrep m' beyond =>
        rw [show m' = m from hcarries] at habout
        exact habout
    | rreq | rerr | null | timing => exact absurd hcarries id
  · intro dest hevent
    unfold LooksApart at hlooks
    rw [hevent] at hlooks
    exact hlooks

variable [DecidableEq ι]

theorem Network.hasAddress_netStep (net : Network ι) (a : NetInput ι) :
    (netStep net a).HasAddress = net.HasAddress := by
  have haddress : ∀ j, (netStep net a j).ipAddress = (net j).ipAddress := fun j =>
    run_ipAddress net [a]
  funext ip
  simp only [Network.HasAddress, haddress]

theorem Network.knowsNodes_netStep (net : Network ι)
    (hdistinct : Function.Injective fun i => slotOf (net i).ipAddress) (a : NetInput ι)
    (h : net.KnowsNodes) (hcarried : Carried net a) (hlooks : LooksApart net a) :
    (netStep net a).KnowsNodes := by
  intro i
  rw [Network.hasAddress_netStep]
  by_cases hnode : i = a.node
  · rw [hnode, netStep_self]
    exact knowsNodes_step a.input (h a.node)
      (heardOfNodes_of_carried net hdistinct a h hcarried hlooks)
  · rw [netStep_ne net a i hnode]
    exact h i

/-- In every run from start-up in which the messages that arrive have been sent, whatever
    is lost, delayed or repeated, and in which nobody sends packets to an address that
    shares its slot with another node's: every route of the kernel and every valid route
    of a table is one to a node of the network, and so is what every reply offers. -/
theorem routes_lead_to_nodes (net₀ : Network ι) (hstart : NetworkStart net₀)
    (inputs : List (NetInput ι)) (hcarried : AllSteps netStep Carried net₀ inputs)
    (hlooks : AllSteps netStep LooksApart net₀ inputs) :
    let net := run netStep net₀ inputs
    (∀ i d g, kernelRoute (net i).log d = some g → net₀.HasAddress d) ∧
      (∀ i k e, (net i).routes.slots k = some e → e.status = .routeValid →
        net₀.HasAddress e.destIp) ∧
      ∀ m beyond, net.InFlight (.rrep m beyond) → net₀.HasAddress m.destIp := by
  intro net
  have hknows : net.KnowsNodes ∧ net.HasAddress = net₀.HasAddress ∧
      Function.Injective fun i => slotOf (net i).ipAddress := by
    refine run_invariant netStep (fun net a => Carried net a ∧ LooksApart net a)
      (fun net => net.KnowsNodes ∧ net.HasAddress = net₀.HasAddress ∧
        Function.Injective fun i => slotOf (net i).ipAddress) ?_ net₀ inputs
      ⟨net₀.knowsNodes_start hstart, rfl, hstart.distinct⟩
      ((allSteps_and netStep Carried LooksApart net₀ inputs).mpr ⟨hcarried, hlooks⟩)
    rintro net a ⟨hknows, hsame, hdistinct⟩ ⟨hcarried, hlooks⟩
    refine ⟨net.knowsNodes_netStep hdistinct a hknows hcarried hlooks, ?_, ?_⟩
    · rw [Network.hasAddress_netStep, hsame]
    · intro i j hslot
      simp only [show ∀ j, (netStep net a j).ipAddress = (net j).ipAddress from
        fun j => run_ipAddress net [a]] at hslot
      exact hdistinct hslot
  rcases hknows with ⟨hknows, hsame, -⟩
  unfold Network.KnowsNodes at hknows
  rw [hsame] at hknows
  refine ⟨fun i d g hroute => ?_, fun i k e he hvalid => ((hknows i).entries k e he).2 hvalid, ?_⟩
  · exact (hknows i).calls _ (kernelRoute_mem _ d g hroute)
  · rintro m beyond ⟨i, hsent | ⟨dest, hsent⟩⟩
    · exact (hknows i).calls _ hsent
    · exact (hknows i).calls _ hsent

end Network

/-- The first of three nodes has asked for the third: its route there is one to a node. -/
theorem routes_lead_to_nodes_row :
    kernelRoute (run netStep (Network.boot 3) rowAnswered 0).log 0x03000000 = some 0x02000000 ∧
      (Network.boot 3).HasAddress 0x03000000 := by
  have hroute : kernelRoute (run netStep (Network.boot 3) rowAnswered 0).log 0x03000000 =
      some 0x02000000 := by
    decide +kernel
  have hcarried : AllSteps netStep Carried (Network.boot 3) rowAnswered :=
    AllSteps.imp netStep (fun net a h => carried_of_overLinks rowLinks net a h) _ _
      overLinks_rowAnswered
  have hlooks : AllSteps netStep LooksApart (Network.boot 3) rowAnswered := by
    refine ⟨?_, trivial, trivial, trivial, trivial, trivial, trivial, trivial⟩
    rintro _ ⟨i, rfl⟩ hslot
    have hthird : ∀ i : Fin 3, slotOf (Network.boot 3 i).ipAddress = slotOf 0x03000000 →
        (Network.boot 3 i).ipAddress = 0x03000000 := by
      decide
    exact hthird i hslot
  exact ⟨hroute, (routes_lead_to_nodes (Network.boot 3) boot_networkStart rowAnswered hcarried
    hlooks).1 0 _ _ hroute⟩

-- Nobody is 2.0.0.7, but a request of 2.0.0.0 finds the entry a packet has made for it.
example : kernelRoute (run netStep (Network.boot 3)
    [⟨0, { env := .clear, event := .outgoing 0x02000007 }⟩,
      ⟨1, { env := .clear, event := .outgoing 0x03000000 }⟩,
      ⟨1, { env := .clear, event := .search 1 }⟩,
      ⟨0, receive 0x02000000 (.rreq { firstRequest with srcIp := 0x02000000 })⟩] 0).log
    0x02000007 = some 0x02000000 := by
  decide +kernel

end OpenManet
