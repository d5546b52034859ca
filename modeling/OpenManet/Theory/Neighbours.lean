import OpenManet.Theory.KernelRoutes
import OpenManet.Theory.NeighbourLists
import OpenManet.Theory.Discovery

/-!
# Neighbours

A network in which not every node hears every other has links, and what a node hears
comes over a link. A node knows no more of the links than whom it has heard, and the
source never checks an address it sends to or gives to the kernel as a gateway. Still
they are all neighbours: a next hop is the sender of the message the route was learnt
from, and a precursor is such a sender or a next hop.

One address is not: the entry a search makes has next hop 0, which a reply may be sent
to or list as a precursor. Nothing else is sent to an address that was never heard,
whatever the messages say and in whatever order they come.

## Main definitions

* `GoesOver`: The next hops, precursors, gateways and receivers of a node.
* `Op.GoesTo`: The same of what an operation writes or sends.
* `OverLinks`: What arrives was sent by a neighbour.

## Theorems

* `handler_goesTo`: Every handler keeps to whom it has heard.
* `kernelRoute_mem`: A route of the kernel was asked for.
* `routes_over_links`: Routes and packets go over links, in every run of a network.
-/

namespace OpenManet

/-! ### Whom a node sends to -/

section Heard

variable (heard : U32 → Prop)

/-- The address is that of a node heard, or 0 for none. -/
def HeardOrNone (ip : U32) : Prop := ip = 0 ∨ heard ip

/-- Gateways have been heard, and packets go to nodes that have been. -/
def ApiCall.GoesTo : ApiCall → Prop
  | addUnicastRoutingEntry _ gateway => heard gateway
  | sendUnicast dest packet => packet = .timing ∨ HeardOrNone heard dest
  | sendBroadcast _ | deleteEntry _ _ => True

/-- The next hop and the precursors of the entry have been heard. -/
def RoutingEntry.GoesOver (e : RoutingEntry) : Prop :=
  HeardOrNone heard e.nextHop ∧ ∀ p ∈ e.precursorList, HeardOrNone heard p

/-- The table and the record name nodes that have been heard. -/
structure GoesOver (n : Node) : Prop where
  entries : n.Entries (RoutingEntry.GoesOver heard)
  calls : ∀ c ∈ n.log, c.GoesTo heard

/-- An operation writes and sends to nodes that have been heard. -/
def Op.GoesTo : Op → Prop
  | create _ _ _ _ nextHop _ _ => HeardOrNone heard nextHop
  | previousHop _ s _ _ | reverseRoute _ s _ _ | forwardRoute _ s _ _ => heard s
  | write _ (.precursor p) => HeardOrNone heard p
  | sendUnicast dest packet => packet = .timing ∨ HeardOrNone heard dest
  | _ => True

end Heard

section Operations

variable {heard : U32 → Prop} {n : Node}

/-- Every call of the operation is one of these. -/
theorem calls_goesTo (o : Op) (h : o.GoesTo heard) : ∀ c ∈ o.calls n, c.GoesTo heard := by
  have hfound : ∀ (ip : U32) (calls : RoutingEntry → List ApiCall),
      (∀ e, ∀ c ∈ calls e, c.GoesTo heard) → ∀ c ∈ n.whenFound ip calls, c.GoesTo heard := by
    intro ip calls hcalls c hc
    unfold Node.whenFound at hc
    cases he : n.getRoutingEntry ip with
    | none =>
        rw [he] at hc
        exact absurd hc List.not_mem_nil
    | some e =>
        rw [he] at hc
        exact hcalls e c hc
  cases o with
  | previousHop | reverseRoute =>
      refine hfound _ _ (fun e c hc => ?_)
      rcases List.mem_singleton.mp hc with rfl
      exact h
  | forwardRoute env s m new =>
      refine hfound _ _ (fun e c hc => ?_)
      have hadd : c = .addUnicastRoutingEntry m.destIp s := by
        simp only [] at hc
        split at hc
        · rcases List.mem_cons.mp hc with hc | hc
          · exact hc
          · exact List.mem_singleton.mp hc
        · exact List.mem_singleton.mp hc
      rw [hadd]
      exact h
  | breakRoute | linkBreak | outgoingBreak | expireRoute =>
      refine hfound _ _ (fun e c hc => ?_)
      rcases List.mem_singleton.mp hc with rfl
      trivial
  | sendRreq | sendBroadcast =>
      intro c hc
      rcases List.mem_singleton.mp hc with rfl
      trivial
  | sendUnicast =>
      intro c hc
      rcases List.mem_singleton.mp hc with rfl
      exact h
  | create | hello | searchFound | activate | removeEntry | write | startSearch | beginWait
  | moveWaiter | moveHello | incrementSequenceNum | writeSequenceNum | searchFailed =>
      intro c hc
      exact absurd hc List.not_mem_nil

theorem effect_nextHop (o : Op) (ip : U32) (f : RoutingEntry → RoutingEntry)
    (heff : o.effect n = .update ip f) (h : o.GoesTo heard) (e : RoutingEntry) :
    (f e).nextHop = e.nextHop ∨ heard (f e).nextHop := by
  cases o with
  | previousHop env s l new =>
      cases heff
      rcases previousHop_eq env new e l with ⟨t, ht⟩
      rw [ht]
      exact Or.inl rfl
  | reverseRoute env s m new =>
      cases heff
      by_cases hm : new = true ∨ fresherReverse m e = true
      · rcases reverseRoute_accepted env s new e m hm with ⟨t, ht⟩
        rw [ht]
        exact Or.inr h
      · rcases reverseRoute_refused env s new e m hm with ⟨t, ht⟩
        rw [ht]
        exact Or.inl rfl
  | forwardRoute env s m new =>
      cases heff
      by_cases hm : new = true ∨ fresherForward m e = true
      · rcases forwardRoute_accepted env s new e m hm with ⟨t, ht⟩
        rw [ht]
        exact Or.inr h
      · rcases forwardRoute_refused env s new e m hm with ⟨t, ht⟩
        rw [ht]
        exact Or.inl rfl
  | hello env m new =>
      cases heff
      by_cases hm : takesHello m new e
      · rcases hello_accepted env new e m hm with ⟨t, ht⟩
        rw [ht]
        exact Or.inl rfl
      · rw [hello_refused env new e m hm]
        exact Or.inl rfl
  | activate =>
      cases heff
      rw [activate_eq]
      exact Or.inl rfl
  | write ip w =>
      cases heff
      cases w <;> exact Or.inl rfl
  | searchFound | breakRoute | linkBreak | outgoingBreak | expireRoute | startSearch
  | searchFailed =>
      cases heff
      exact Or.inl rfl
  | create | removeEntry | beginWait | moveWaiter | moveHello | incrementSequenceNum
  | writeSequenceNum | sendRreq | sendUnicast | sendBroadcast => cases heff

theorem goesOver_apply (o : Op) (hn : GoesOver heard n) (h : o.GoesTo heard) :
    GoesOver heard (o.apply n) := by
  refine ⟨entries_apply _ o n hn.entries (fun e hfresh => ?_) (fun ip f e heff he => ?_),
    fun c hc => ?_⟩
  · cases o with
    | create =>
        cases hfresh
        exact ⟨h, fun p hp => absurd hp List.not_mem_nil⟩
    | _ => cases hfresh
  · refine ⟨?_, fun p hp => ?_⟩
    · rcases effect_nextHop o ip f heff h e with hsame | hnew
      · rw [hsame]
        exact he.1
      · exact Or.inr hnew
    · rcases effect_precursors n o ip f heff e with hsame | ⟨q, rfl, happend⟩
      · exact he.2 p (hsame ▸ hp)
      · rw [happend] at hp
        rcases List.mem_append.mp hp with hold | hnew
        · exact he.2 p hold
        · rw [List.mem_singleton.mp hnew]
          exact h
  · rw [apply_log] at hc
    rcases List.mem_append.mp hc with hnew | hold
    · exact calls_goesTo o h c hnew
    · exact hn.calls c hold

theorem GoesOver.nextHop (hn : GoesOver heard n) (d : U32) (e : RoutingEntry)
    (he : n.getRoutingEntry d = some e) : HeardOrNone heard e.nextHop := (hn.entries _ e he).1

theorem GoesOver.nextHopOf (hn : GoesOver heard n) (d : U32) :
    HeardOrNone heard (n.nextHopOf d) := by
  unfold Node.nextHopOf
  cases he : n.getRoutingEntry d with
  | none => exact Or.inl rfl
  | some e => exact hn.nextHop d e he

end Operations

/-! ### The handlers -/

section Handlers

variable {heard : U32 → Prop}

/-- A handler writes and sends to nodes that have been heard. -/
abbrev Handler.GoesTo (heard : U32 → Prop) (h : Handler) (n : Node) : Prop :=
  h.Meets Op.apply (fun o _ => o.GoesTo heard) n

theorem sendRrepIntermediate_goesTo (env : Env) (m : RreqHeader) (s : U32) (hs : heard s)
    (n : Node) (hn : GoesOver heard n) :
    (sendRrepIntermediate env m s acceptPacket).GoesTo heard n := by
  have hwrite : (Op.write m.destIp (.precursor s)).GoesTo heard := Or.inr hs
  refine ⟨hwrite, ?_⟩
  have hn' := goesOver_apply _ hn hwrite
  simp only [Prog.Meets]
  cases he : ((Op.write m.destIp (.precursor s)).apply n).getRoutingEntry m.destIp with
  | none => trivial
  | some e =>
      have hhop : HeardOrNone heard e.nextHop := hn'.nextHop m.destIp e he
      refine ⟨Or.inr (Or.inr hs), hhop, ?_⟩
      split
      · exact ⟨Or.inr hhop, trivial⟩
      · trivial

theorem recvRreq_goesTo (env : Env) (s : U32) (m : RreqHeader) (hs : heard s) (n : Node)
    (hn : GoesOver heard n) : (recvRreq env s m).GoesTo heard n := by
  have hcreate : ∀ ip seq valid hops t,
      (Op.create env ip seq valid s hops t).GoesTo heard := fun _ _ _ _ _ => Or.inr hs
  refine ⟨hcreate _ _ _ _ _, hs, ?_⟩
  have hprevious := goesOver_apply (.previousHop env s m.srcIp (n.isNew s))
    (goesOver_apply _ hn (hcreate s 0 .seqInvalid 0 (toU32 activeRouteTimeout))) hs
  simp only [Prog.Meets]
  split
  · trivial
  · split
    · trivial
    · refine ⟨hcreate _ _ _ _ _, hs, ?_⟩
      simp only [afterReverseRoute]
      split
      · exact ⟨trivial, trivial, Or.inr (Or.inr hs), trivial⟩
      · simp only [answerOrForward, Prog.Meets]
        split
        · exact sendRrepIntermediate_goesTo env _ s hs _
            (goesOver_apply _ (goesOver_apply _ hprevious (hcreate _ _ _ _ _)) hs)
        · split
          · trivial
          · exact ⟨trivial, trivial⟩

theorem installForwardRoute_goesTo (env : Env) (s : U32) (m : RrepHeader) (hs : heard s)
    (n : Node) (hn : GoesOver heard n) : (installForwardRoute env s m).GoesTo heard n := by
  have hcreate : (Op.create env m.destIp m.destSeq .seqValid s (m.hopCount.setWidth 32)
      m.lifetime).GoesTo heard := Or.inr hs
  have hforward : ∀ new, (Op.forwardRoute env s m new).GoesTo heard := fun _ => hs
  have hactivate : ∀ ip, (Op.activate ip).GoesTo heard := fun _ => trivial
  refine ⟨hcreate, hs, trivial, ?_⟩
  have hn₁ := goesOver_apply _ (goesOver_apply _ (goesOver_apply _ hn hcreate)
    (hforward (n.isNew m.destIp))) (hactivate m.destIp)
  simp only []
  split
  · simp only [forwardRrep, Prog.Meets]
    split
    · -- Each next hop is read in the state the last operation has left.
      have hn₂ := goesOver_apply _ hn₁ (hactivate m.srcIp)
      have hfirst : (Op.write m.srcIp (.precursor _)).GoesTo heard := hn₂.nextHopOf m.destIp
      have hn₃ := goesOver_apply _ hn₂ hfirst
      refine ⟨trivial, hfirst, ?_, Or.inr ?_, trivial⟩
      · exact hn₂.nextHopOf m.srcIp
      · exact hn₂.nextHopOf m.srcIp
    · trivial
  · trivial

theorem recvRrep_goesTo (env : Env) (s : U32) (m : RrepHeader) (hs : heard s) (n : Node)
    (hn : GoesOver heard n) : (recvRrep env s m).GoesTo heard n := by
  have hrest : ∀ n : Node, GoesOver heard n → Handler.GoesTo heard
      (if m.srcIp = 0 then recvHello env s (incrementHopRrep m)
        else previousHopSection env s m.destIp
          (installForwardRoute env s (incrementHopRrep m))) n := by
    intro n hn
    split
    · exact ⟨Or.inr hs, trivial, trivial⟩
    · have hcreate : (Op.create env s 0 .seqInvalid s 0 (toU32 activeRouteTimeout)).GoesTo heard :=
        Or.inr hs
      have hprevious : (Op.previousHop env s m.destIp (n.isNew s)).GoesTo heard := hs
      exact ⟨hcreate, hprevious, installForwardRoute_goesTo env s _ hs _
        (goesOver_apply _ (goesOver_apply _ hn hcreate) hprevious)⟩
  simp only [recvRrep, publishFound, Handler.GoesTo, Prog.Meets]
  split
  · have hfound : (Op.searchFound m.destIp).GoesTo heard := trivial
    exact ⟨trivial, hrest _ (goesOver_apply _ hn hfound)⟩
  · exact hrest n hn

/-- An error goes to a precursor or to all. -/
theorem add_goesTo (target : RerrTarget) (e : RoutingEntry)
    (htarget : HeardOrNone heard target.singleRerr) (he : e.GoesOver heard) :
    HeardOrNone heard (target.add e.precursorList).singleRerr := by
  unfold RerrTarget.add
  split
  · rename_i single hlist
    split
    · exact he.2 single (by rw [hlist]; exact List.mem_cons_self)
    · exact htarget
  · exact htarget

theorem send_goesTo (target : RerrTarget) (packet : Packet)
    (htarget : HeardOrNone heard target.singleRerr) : (target.send packet).GoesTo heard := by
  unfold RerrTarget.send
  split
  · exact Or.inr htarget
  · trivial

theorem collect_goesTo (l : RerrLocals) (e : RoutingEntry) (destSeq : U32)
    (hl : HeardOrNone heard l.target.singleRerr) (he : e.GoesOver heard) :
    HeardOrNone heard (l.collect e destSeq).target.singleRerr := by
  unfold RerrLocals.collect
  split
  · exact add_goesTo l.target e hl he
  · exact hl

theorem rerrLoop_goesTo (env : Env) (s : U32) (pairs : List (U32 × U32)) (l : RerrLocals)
    (n : Node) (hn : GoesOver heard n) (hl : HeardOrNone heard l.target.singleRerr) :
    (rerrLoop env s pairs l).GoesTo heard n := by
  induction pairs generalizing l n with
  | nil =>
      unfold rerrLoop
      split
      · trivial
      · exact ⟨send_goesTo _ _ hl, trivial⟩
  | cons pair rest ih =>
      simp only [rerrLoop, Handler.GoesTo, Prog.Meets]
      cases he : n.getRoutingEntry pair.1 with
      | none => exact ih l n hn hl
      | some e =>
          simp only []
          split
          · have hbreak : (Op.breakRoute env pair.1 pair.2).GoesTo heard := trivial
            refine ⟨trivial, ih _ _ (goesOver_apply _ hn hbreak) ?_⟩
            rw [he]
            exact collect_goesTo l e pair.2 hl (hn.entries _ e he)
          · exact ih l n hn hl

theorem breakLoop_goesTo (env : Env) (dest : U32) (list : List U32) (l : BreakLocals)
    (n : Node) (hn : GoesOver heard n) (hl : HeardOrNone heard l.target.singleRerr) :
    (breakLoop env dest list l).GoesTo heard n := by
  induction list generalizing l n with
  | nil => exact ⟨send_goesTo _ _ hl, trivial⟩
  | cons ip rest ih =>
      simp only [breakLoop, Handler.GoesTo, Prog.Meets]
      split
      · have hbreak : (Op.linkBreak env ip).GoesTo heard := trivial
        refine ⟨trivial, ih _ _ (goesOver_apply _ hn hbreak) ?_⟩
        cases he : n.getRoutingEntry ip with
        | none => exact hl
        | some e =>
            simp only [BreakLocals.collect]
            split
            · exact add_goesTo l.target e hl (hn.entries _ e he)
            · exact hl
      · exact ih l n hn hl

theorem forwardedOver_goesTo (env : Env) (src dest hopIp : U32) (srcEntry other : Bool)
    (n : Node) (hn : GoesOver heard n) :
    (forwardedOver env src dest hopIp srcEntry other).GoesTo heard n := by
  have hpass : (forwardedPass env src dest srcEntry).GoesTo heard n := by
    cases srcEntry with
    | false => exact ⟨trivial, trivial⟩
    | true => exact ⟨trivial, trivial, trivial⟩
  simp only [forwardedOver, Handler.GoesTo, Prog.Meets]
  split
  · cases other with
    | false => exact hpass
    | true => exact hpass
  · split
    · simp only [forwardedBreak, Prog.Meets]
      split
      · trivial
      · have htimer : (Op.write hopIp (.timer env (toU32 deletePeriod))).GoesTo heard := trivial
        exact ⟨trivial, breakLoop_goesTo env dest _ _ _ (goesOver_apply _ hn htimer) (Or.inl rfl)⟩
    · exact ⟨trivial, trivial⟩

theorem forwardedMessages_goesTo (env : Env) (src dest : U32) (n : Node)
    (hn : GoesOver heard n) : (forwardedMessages env src dest).GoesTo heard n := by
  simp only [forwardedMessages, Handler.GoesTo, Prog.Meets]
  split
  · simp only [Prog.Meets]
    split
    · exact ⟨trivial, trivial⟩
    · split
      · exact ⟨trivial, trivial⟩
      · split
        · exact forwardedOver_goesTo env src dest _ _ true n hn
        · exact forwardedOver_goesTo env src dest _ _ false n hn
  · exact ⟨trivial, trivial⟩

theorem startOrJoin_goesTo (dest : U32) (new : Bool) (n n' : Node) :
    (startOrJoin dest new n).GoesTo heard n' := by
  unfold startOrJoin
  split
  · trivial
  · simp only []
    split
    · trivial
    · split
      · exact ⟨trivial, trivial⟩
      · split
        · exact ⟨trivial, trivial, trivial⟩
        · exact ⟨trivial, trivial, trivial, trivial⟩

/-- An entry made for a search has no next hop. -/
theorem sendRreq_goesTo (env : Env) (dest : U32) (n : Node) :
    (sendRreq env dest).GoesTo heard n :=
  ⟨Or.inl rfl, startOrJoin_goesTo dest _ _ _⟩

theorem outgoingMessage_goesTo (env : Env) (dest : U32) (n : Node) :
    (outgoingMessage env dest).GoesTo heard n := by
  simp only [outgoingMessage, Handler.GoesTo, Prog.Meets]
  split
  · trivial
  · split
    · exact sendRreq_goesTo env dest n
    · split
      · exact ⟨trivial, trivial⟩
      · split
        · trivial
        · split
          · exact ⟨trivial, sendRreq_goesTo env dest _⟩
          · exact sendRreq_goesTo env dest n

theorem waiterStep_goesTo (env : Env) (k : Nat) (n : Node) :
    (waiterStep env k).GoesTo heard n := by
  simp only [waiterStep, Handler.GoesTo, Prog.Meets]
  split
  · trivial
  · split
    · split
      · trivial
      · exact ⟨trivial, trivial⟩
    · exact ⟨trivial, Or.inl rfl, trivial⟩
    · split
      · exact ⟨trivial, trivial, trivial⟩
      · exact ⟨trivial, trivial, trivial⟩
    · trivial

theorem ringStep_goesTo (env : Env) (t : SearchThread) (rreq : RreqHeader) (ttl : U32)
    (n : Node) : (ringStep env t rreq ttl).GoesTo heard n := by
  unfold ringStep retryStep
  split
  · exact ⟨trivial, trivial⟩
  · split
    · exact ⟨trivial, trivial⟩
    · exact ⟨trivial, trivial⟩

theorem searchThreadStep_goesTo (env : Env) (id : Nat) (n : Node) :
    (searchThreadStep env id).GoesTo heard n := by
  simp only [searchThreadStep, Handler.GoesTo, Prog.Meets]
  split
  · trivial
  · split
    · refine ⟨trivial, ?_⟩
      simp only [Prog.Meets]
      split
      · trivial
      · exact ringStep_goesTo env _ _ _ _
    · exact ringStep_goesTo env _ _ _ n
    · unfold retryStep
      split
      · exact ⟨trivial, trivial⟩
      · exact ⟨trivial, trivial⟩

end Handlers

/-- Every handler keeps to the nodes that have been heard, the sender of its message
    among them. -/
theorem handler_goesTo (heard : U32 → Prop) (n : Node) (input : Input)
    (hheard : ∀ s message, input.event = .control s message → heard s)
    (hn : GoesOver heard n) : OpsMeet (fun o _ => o.GoesTo heard) n input := by
  rcases input with ⟨env, event⟩
  cases event with
  | control s message =>
      have hs : heard s := hheard s message rfl
      refine incomingControlMessage_meets n env s _ message (fun _ => ?_)
      cases message with
      | rreq m => exact recvRreq_goesTo env s m hs n hn
      | rrep m => exact recvRrep_goesTo env s m hs n hn
      | rerr header destPairs => exact rerrLoop_goesTo env s _ _ n hn (Or.inl rfl)
  | data src dest => exact incomingDataMessage_meets n env _ src dest fun _ => trivial
  | outgoing dest => exact outgoingMessage_goesTo env dest n
  | forwarded src dest => exact forwardedMessages_goesTo env src dest n hn
  | search id => exact searchThreadStep_goesTo env id n
  | wait k => exact waiterStep_goesTo env k n
  | expire ip =>
      simp only [OpsMeet, Input.handler, expirationFunc, Prog.Meets]
      split
      · simp only [Prog.Meets]
        split
        · exact ⟨trivial, trivial⟩
        · exact ⟨trivial, trivial⟩
      · trivial
  | rreqIdExpire ip => exact rreqIdFunc_meets n _ ip trivial
  | hello => exact helloInterval_meets n _ (fun _ => trivial) (fun _ => trivial) fun _ => trivial

theorem goesOver_step (heard : U32 → Prop) (n : Node) (input : Input)
    (hheard : ∀ s message, input.event = .control s message → s ≠ n.ipAddress → heard s)
    (hn : GoesOver heard n) : GoesOver heard (step n input) := by
  by_cases hown : ∃ message, input.event = .control n.ipAddress message
  · -- A node does not listen to itself.
    rcases hown with ⟨message, hevent⟩
    have hstep := step_own n input.env message
    rw [← hevent] at hstep
    rw [hstep]
    exact hn
  · have hmeets := handler_goesTo heard n input (fun s message hevent =>
      hheard s message hevent fun hs => hown ⟨message, hs ▸ hevent⟩) hn
    exact Prog.exec_invariant Op.apply (fun o _ => o.GoesTo heard) (GoesOver heard)
      (fun o n hn ho => goesOver_apply o hn ho) input.handler n hn hmeets

/-! ### The network -/

/-- A route of the kernel has been asked for. -/
theorem kernelRoute_mem (log : List ApiCall) (d g : U32) (h : kernelRoute log d = some g) :
    .addUnicastRoutingEntry d g ∈ log := by
  induction log with
  | nil => cases h
  | cons c earlier ih =>
      cases c with
      | addUnicastRoutingEntry dest gateway =>
          rw [kernelRoute_add] at h
          split at h
          · rename_i hdest
            cases h
            rw [hdest]
            exact List.mem_cons_self
          · exact List.mem_cons_of_mem _ (ih h)
      | deleteEntry dest gateway =>
          rw [kernelRoute_delete] at h
          split at h
          · cases h
          · exact List.mem_cons_of_mem _ (ih h)
      | sendUnicast | sendBroadcast => exact List.mem_cons_of_mem _ (ih h)

section Network

variable {ι : Type}

/-- A message that arrives has been sent before by a node the receiver hears, to
    everybody or to the receiver; anything else may happen. -/
def OverLinks (links : ι → ι → Prop) (net : Network ι) (a : NetInput ι) : Prop :=
  match a.input.event with
  | .control src message => ∃ i packet, links i a.node ∧ (net i).ipAddress = src ∧
      packet.Carries message ∧ (.sendBroadcast packet ∈ (net i).log ∨
        .sendUnicast (net a.node).ipAddress packet ∈ (net i).log)
  | _ => True

variable [DecidableEq ι]

/-- The routes of the kernel and of the table lead to nodes whose messages the node
    hears, and so do its packets: in every run over links from start-up, whatever is
    lost, delayed or repeated. An address that is 0 stands for a next hop not known. -/
theorem routes_over_links (links : ι → ι → Prop) (net : Network ι)
    (hboot : ∀ i, ∃ ip bcast hello, net i = Node.boot ip bcast hello)
    (inputs : List (NetInput ι)) (hlegal : AllSteps netStep (OverLinks links) net inputs) (i : ι) :
    let neighbour (ip : U32) : Prop := ∃ j, links j i ∧ (run netStep net inputs j).ipAddress = ip
    let n := run netStep net inputs i
    (∀ d g, kernelRoute n.log d = some g → neighbour g) ∧
      (∀ k e, n.routes.slots k = some e → (e.nextHop = 0 ∨ neighbour e.nextHop) ∧
        ∀ p ∈ e.precursorList, p = 0 ∨ neighbour p) ∧
      ∀ d packet, .sendUnicast d packet ∈ n.log → packet = .timing ∨ d = 0 ∨ neighbour d := by
  intro neighbour n
  have hgoes : GoesOver neighbour n := by
    -- Addresses stay, so whom a node can hear does not change.
    have haddress : neighbour = fun ip => ∃ j, links j i ∧ (net j).ipAddress = ip := by
      funext ip
      simp only [neighbour, run_ipAddress]
    rw [haddress]
    refine (run_invariant netStep (OverLinks links) (fun net' => (∀ j, (net' j).ipAddress =
      (net j).ipAddress) ∧ GoesOver (fun ip => ∃ j, links j i ∧ (net j).ipAddress = ip) (net' i))
      ?_ net inputs ⟨fun _ => rfl, ?_⟩ hlegal).2
    · rintro net' a ⟨haddress, hi⟩ ha
      refine ⟨fun j => ?_, ?_⟩
      · by_cases hnode : j = a.node
        · rw [hnode, netStep_self, step_ipAddress, haddress]
        · rw [netStep_ne net' a j hnode, haddress]
      · by_cases hnode : i = a.node
        · rw [hnode, netStep_self]
          rw [hnode] at hi
          refine goesOver_step _ _ a.input (fun s message hevent _ => ?_) hi
          unfold OverLinks at ha
          rw [hevent] at ha
          rcases ha with ⟨j, packet, hlink, hs, -, -⟩
          exact ⟨j, hnode ▸ hlink, (haddress j).symm.trans hs⟩
        · rw [netStep_ne net' a i hnode]
          exact hi
    · rcases hboot i with ⟨ip, bcast, hello, hnode⟩
      rw [hnode]
      exact ⟨fun k e he => absurd he (Node.boot_slots_ne ip bcast hello k e),
        fun c hc => absurd hc List.not_mem_nil⟩
  exact ⟨fun d g hroute => hgoes.calls _ (kernelRoute_mem n.log d g hroute),
    fun k e he => hgoes.entries k e he, fun d packet hsent => hgoes.calls _ hsent⟩

end Network

/-- Three nodes in a row hear their neighbours. -/
def rowLinks (i j : Fin 3) : Prop := i.val + 1 = j.val ∨ j.val + 1 = i.val

/-- The first node asks for the third in its second ring, and the reply comes back. -/
def rowAnswered : List (NetInput (Fin 3)) :=
  [⟨Row.first, { env := .clear, event := .outgoing 0x03000000 }⟩,
    ⟨Row.first, { env := .clear, event := .search 1 }⟩,
    ⟨Row.first, { env := .clear, event := .search 1 }⟩,
    ⟨Row.middle, receive 0x01000000 (.rreq { firstRequest with rreqId := 2, ttl := 3 })⟩,
    ⟨Row.last, receive 0x02000000
      (.rreq { firstRequest with rreqId := 2, ttl := 2, hopCount := 1 })⟩,
    ⟨Row.middle, receive 0x03000000 (replyAfter 0 0x03000000 1 0x01000000)⟩,
    ⟨Row.first, receive 0x02000000 (replyAfter 1 0x03000000 1 0x01000000)⟩]

theorem overLinks_rowAnswered :
    AllSteps netStep (OverLinks rowLinks) (Network.boot 3) rowAnswered :=
  ⟨trivial, trivial, trivial,
    ⟨0, .rreq _, Or.inl rfl, rfl, rfl, Or.inl (by decide +kernel)⟩,
    ⟨1, .rreq _, Or.inl rfl, rfl, rfl, Or.inl (by decide +kernel)⟩,
    ⟨2, .rrep _ [], Or.inr rfl, rfl, rfl, Or.inr (by decide +kernel)⟩,
    ⟨1, .rrep _ [], Or.inr rfl, rfl, rfl, Or.inr (by decide +kernel)⟩, trivial⟩

/-- The first node then has a kernel route, and it is over the second. -/
theorem routes_over_links_row :
    kernelRoute (run netStep (Network.boot 3) rowAnswered 0).log 0x03000000 = some 0x02000000 ∧
      ∃ j, rowLinks j 0 ∧ (run netStep (Network.boot 3) rowAnswered j).ipAddress = 0x02000000 := by
  have hroute : kernelRoute (run netStep (Network.boot 3) rowAnswered 0).log 0x03000000 =
      some 0x02000000 := by
    decide +kernel
  exact ⟨hroute, (routes_over_links rowLinks (Network.boot 3) (fun _ => ⟨_, _, _, rfl⟩)
    rowAnswered overLinks_rowAnswered 0).1 _ _ hroute⟩

end OpenManet
