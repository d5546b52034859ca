import OpenManet.Library.DistanceVector
import OpenManet.Theory.Flooding
import OpenManet.Theory.Freshness

/-!
# Loop Freedom

Every reply a node sends and every request it passes on offers a route, to the
destination of the one and to the originator of the other, with the number and the
hop count in the packet. Whoever takes the offer has one hop more.

The next hops to a destination form no circle as long as no node has offered
anything better than the route it has. Three sections break that rule. A route that
was given up is made valid again as it was, whatever its next hop has done since: by
the section about the previous hop, and by the update tests where they refuse what
the message offers. An offer is taken although the node has offered better, since an
equal number is as good as a newer one to the test of a reply, and since neither test
knows what was offered before the entry was given up or removed. And a hello raises
the number of a route that leads elsewhere. `RouteOk` says of an operation that it
does none of this, nor counts 256 hops as none, nor follows a reply about the node
itself.

## Main definitions

* `Packet.offer`, `Node.Offered`: The routes a node has offered.
* `RouteOk`: Operations that keep to the rule.
* `Op.NumbersInOrder`: A comparison that no rollover disturbs.
* `Carried`, `NetworkStart`: The messages that arrive, and the network at start-up.
* `RoutesOver`, `LoopFree`: The next hops to a destination.
* `RouteSound`: What the rule keeps of a node.

## Theorems

* `routeSound_apply`, `routeSound_step`: What an operation and a step keep.
* `loop_free`: There is no loop in any state of such a run.
* `not_loop_free_equalNumber`: A second reply with the same number closes one.
-/

namespace OpenManet

/-! ### Offers -/

/-- The route a packet offers: the slot of the destination, and the rank. -/
def Packet.offer : Packet → Option (Fin 256 × Rank)
  | rreq m => some (slotOf m.srcIp, rankOf m.srcSeq.toNat m.hopCount.toNat)
  | rrep m _ => some (slotOf m.destIp, rankOf m.destSeq.toNat m.hopCount.toNat)
  | rerr _ _ | null _ | timing => none

/-- The routes a node has offered, newest first. -/
def Node.offers (n : Node) : List (Fin 256 × Rank) :=
  n.log.filterMap fun c => c.packet.bind Packet.offer

/-- The node has offered a route of this rank. -/
def Node.Offered (k : Fin 256) (r : Rank) (n : Node) : Prop := (k, r) ∈ n.offers

/-- The rank of the route of an entry. -/
def RoutingEntry.rank (e : RoutingEntry) : Rank := rankOf e.destSeq.toNat e.hopCount.toNat

/-- A route a message offers, its last hop counted, that the node may take: the count
    has not rolled over, and the node has offered nothing better. -/
def Takeable (k : Fin 256) (seq : U32) (hopCount : Byte) (n : Node) : Prop :=
  hopCount ≠ 0 ∧ ∀ o ∈ n.offers, o.1 = k → o.2 ≤ rankOf seq.toNat hopCount.toNat

instance (k : Fin 256) (seq : U32) (hopCount : Byte) (n : Node) :
    Decidable (Takeable k seq hopCount n) := inferInstanceAs (Decidable (_ ∧ _))

section Nodes

variable (nodes : U32 → Prop)

/-- The entry, in this slot, has a route over another node than the destination. -/
def RoutingEntry.OverRelay (k : Fin 256) (e : RoutingEntry) : Prop :=
  e.status = .routeValid ∧ slotOf e.nextHop ≠ k ∧ nodes e.nextHop

instance [DecidablePred nodes] (k : Fin 256) (e : RoutingEntry) :
    Decidable (e.OverRelay nodes k) := inferInstanceAs (Decidable (_ ∧ _))

/-- A route over a relay in the slot is at least as good as the rank. -/
def Node.Covers (k : Fin 256) (r : Rank) (n : Node) : Prop :=
  ∀ e, n.routes.slots k = some e → e.OverRelay nodes k → r ≤ e.rank

/-- If the entry becomes valid as it is, it leads to the destination itself, or to no
    node. -/
def RoutingEntry.Revivable (k : Fin 256) (e : RoutingEntry) : Prop :=
  e.status = .routeInvalid → nodes e.nextHop → slotOf e.nextHop = k

instance [DecidablePred nodes] (k : Fin 256) (e : RoutingEntry) :
    Decidable (e.Revivable nodes k) := inferInstanceAs (Decidable (_ → _))

/-- The operation takes no route that is worse than what the node has offered, makes
    no route valid again that leads to a relay, and raises the number of none; and no
    reply about the node itself is followed. -/
def RouteOk : Op → Node → Prop
  | .previousHop _ senderIp _ _, n =>
    ∀ e, n.getRoutingEntry senderIp = some e → e.Revivable nodes (slotOf senderIp)
  | .reverseRoute _ _ m new, n =>
    ∀ e, n.getRoutingEntry m.srcIp = some e →
      if new = true ∨ fresherReverse m e = true then
        Takeable (slotOf m.srcIp) m.srcSeq m.hopCount n
      else e.Revivable nodes (slotOf m.srcIp)
  | .hello _ m new, n =>
    ∀ e, n.getRoutingEntry m.destIp = some e → takesHello m new e →
      e.OverRelay nodes (slotOf m.destIp) → m.destSeq = e.destSeq
  | .forwardRoute _ _ m new, n =>
    slotOf m.destIp ≠ slotOf n.ipAddress ∧ ∀ e, n.getRoutingEntry m.destIp = some e →
      if new = true ∨ fresherForward m e = true then
        Takeable (slotOf m.destIp) m.destSeq m.hopCount n
      else e.Revivable nodes (slotOf m.destIp)
  | _, _ => True

instance [DecidablePred nodes] (o : Op) (n : Node) : Decidable (RouteOk nodes o n) :=
  match o with
  | .previousHop _ senderIp _ _ => inferInstanceAs (Decidable (∀ e,
      n.getRoutingEntry senderIp = some e → e.Revivable nodes (slotOf senderIp)))
  | .reverseRoute _ _ m new => inferInstanceAs (Decidable (∀ e,
      n.getRoutingEntry m.srcIp = some e → if new = true ∨ fresherReverse m e = true then
        Takeable (slotOf m.srcIp) m.srcSeq m.hopCount n else e.Revivable nodes (slotOf m.srcIp)))
  | .hello _ m new => inferInstanceAs (Decidable (∀ e, n.getRoutingEntry m.destIp = some e →
      takesHello m new e → e.OverRelay nodes (slotOf m.destIp) → m.destSeq = e.destSeq))
  | .forwardRoute _ _ m new => inferInstanceAs (Decidable (slotOf m.destIp ≠ slotOf n.ipAddress ∧
      ∀ e, n.getRoutingEntry m.destIp = some e → if new = true ∨ fresherForward m e = true then
        Takeable (slotOf m.destIp) m.destSeq m.hopCount n else e.Revivable nodes (slotOf m.destIp)))
  | .create .. | .searchFound _ | .activate _ | .breakRoute .. | .linkBreak .. | .outgoingBreak ..
  | .expireRoute .. | .removeEntry _ | .write .. | .startSearch _ | .beginWait _ | .moveWaiter ..
  | .moveHello _ | .incrementSequenceNum | .writeSequenceNum _ | .sendRreq .. | .searchFailed ..
  | .sendUnicast .. | .sendBroadcast _ => isTrue trivial

end Nodes

/-- The comparison of a reply's number with the stored one is that of the numbers. -/
def Op.NumbersInOrder : Op → Node → Prop
  | forwardRoute _ _ m _, n =>
    ∀ e, n.getRoutingEntry m.destIp = some e →
      (seqCompare m.destSeq e.destSeq < 0 ↔ m.destSeq.toNat < e.destSeq.toNat)
  | _, _ => True

instance (o : Op) (n : Node) : Decidable (o.NumbersInOrder n) :=
  match o with
  | .forwardRoute _ _ m _ => inferInstanceAs (Decidable (∀ e, n.getRoutingEntry m.destIp = some e →
      (seqCompare m.destSeq e.destSeq < 0 ↔ m.destSeq.toNat < e.destSeq.toNat)))
  | .create .. | .previousHop .. | .reverseRoute .. | .hello .. | .searchFound _ | .activate _
  | .breakRoute .. | .linkBreak .. | .outgoingBreak .. | .expireRoute .. | .removeEntry _
  | .write .. | .startSearch _ | .beginWait _ | .moveWaiter .. | .moveHello _
  | .incrementSequenceNum | .writeSequenceNum _ | .sendRreq .. | .searchFailed ..
  | .sendUnicast .. | .sendBroadcast _ =>
    isTrue trivial

/-! ### The network -/

section Network

variable {ι : Type}

/-- The message is in the packet. -/
def Packet.Carries : Packet → ControlMessage → Prop
  | rreq m, .rreq m' => m = m'
  | rrep m _, .rrep m' => m = m'
  | rerr m words, .rerr m' destPairs => m = m' ∧ ∀ i (hi : i < words.length), destPairs i = words[i]
  | _, _ => False

/-- The addresses of the nodes. -/
def Network.HasAddress (net : Network ι) (ip : U32) : Prop := ∃ i, (net i).ipAddress = ip

instance [Fintype ι] (net : Network ι) : DecidablePred net.HasAddress :=
  fun ip => inferInstanceAs (Decidable (∃ i, (net i).ipAddress = ip))

/-- A message that arrives has been sent before by the node with its source address,
    to everybody or to the node it arrives at; anything else may happen. -/
def Carried (net : Network ι) (a : NetInput ι) : Prop :=
  match a.input.event with
  | .control src message => ∃ i packet, (net i).ipAddress = src ∧ packet.Carries message ∧
      (.sendBroadcast packet ∈ (net i).log ∨
        .sendUnicast (net a.node).ipAddress packet ∈ (net i).log)
  | _ => True

/-- Every operation of the step keeps to the rule. -/
def StepRouteOk (net : Network ι) (a : NetInput ι) : Prop :=
  OpsMeet (RouteOk net.HasAddress) (net a.node) a.input

instance [Fintype ι] (net : Network ι) (a : NetInput ι) : Decidable (StepRouteOk net a) :=
  inferInstanceAs (Decidable (OpsMeet _ _ _))

/-- No comparison of the step is disturbed by a rollover. -/
def StepInOrder (net : Network ι) (a : NetInput ι) : Prop :=
  OpsMeet Op.NumbersInOrder (net a.node) a.input

instance (net : Network ι) (a : NetInput ι) : Decidable (StepInOrder net a) :=
  inferInstanceAs (Decidable (OpsMeet _ _ _))

/-- All nodes are at start-up, and the addresses differ in the top octet. -/
structure NetworkStart (net : Network ι) : Prop where
  boot : ∀ i, ∃ ip bcast hello, net i = Node.boot ip bcast hello
  distinct : Function.Injective fun i => slotOf (net i).ipAddress

/-- The first node has a valid route to the address with the second as next hop. -/
def RoutesOver (d : U32) (net : Network ι) (i j : ι) : Prop :=
  ∃ e, (net i).getRoutingEntry d = some e ∧ e.status = .routeValid ∧
    e.nextHop = (net j).ipAddress

/-- The next hops to the address do not run in a circle. -/
def LoopFree (d : U32) (net : Network ι) : Prop :=
  ∀ i, ¬ Relation.TransGen (RoutesOver d net) i i

end Network

/-! ### What the writes do to a route -/

/-- What a node has offered is in a packet of its record. -/
theorem offered_iff (k : Fin 256) (r : Rank) (n : Node) : n.Offered k r ↔
    ∃ c ∈ n.log, ∃ packet, c.packet = some packet ∧ packet.offer = some (k, r) := by
  simp only [Node.Offered, Node.offers, List.mem_filterMap, Option.bind_eq_some_iff]

/-- The next hop, its rank and its status are the same. -/
structure SameVector (e e' : RoutingEntry) : Prop where
  status : e'.status = e.status
  nextHop : e'.nextHop = e.nextHop
  rank : e'.rank = e.rank

/-- The operation may write a route, make one valid or raise its number. -/
def Op.WritesRoute : Op → Prop
  | previousHop _ _ _ _ | reverseRoute _ _ _ _ | hello _ _ _ | forwardRoute _ _ _ _ => True
  | _ => False

/-- The other writes leave a route as it is, or give it up. -/
theorem effect_vector (n : Node) (o : Op) (hroute : ¬ o.WritesRoute) (ip : U32)
    (f : RoutingEntry → RoutingEntry) (heff : o.effect n = .update ip f) (e : RoutingEntry)
    (hvalid : (f e).status = .routeValid) : SameVector e (f e) := by
  cases o with
  | searchFound | startSearch | searchFailed =>
      cases heff
      exact ⟨rfl, rfl, rfl⟩
  | activate ip =>
      cases heff
      rw [activate_eq]
      exact ⟨rfl, rfl, rfl⟩
  | write ip w =>
      cases heff
      cases w with
      | timer | stopTimer | precursor | searchNone | forgetRreqId => exact ⟨rfl, rfl, rfl⟩
  -- A broken route is invalid, and the statement is about valid ones.
  | breakRoute | linkBreak | outgoingBreak | expireRoute =>
      cases heff
      cases hvalid
  | previousHop | reverseRoute | hello | forwardRoute => exact absurd trivial hroute
  | create | removeEntry | beginWait | moveWaiter | moveHello | incrementSequenceNum
  | writeSequenceNum | sendRreq | sendUnicast | sendBroadcast => cases heff

/-- A fresh entry is not valid. -/
theorem fresh_invalid (n : Node) (o : Op) (e : RoutingEntry) (heff : o.effect n = .create e) :
    e.status = .routeInvalid := by
  cases o with
  | create =>
      cases heff
      rfl
  | _ => cases heff

/-- An operation that writes no route leaves valid ones as they were. -/
theorem valid_kept (n : Node) (o : Op) (hroute : ¬ o.WritesRoute) (k : Fin 256)
    (e' : RoutingEntry) (he' : (o.apply n).routes.slots k = some e')
    (hvalid : e'.status = .routeValid) : ∃ e, n.routes.slots k = some e ∧ SameVector e e' := by
  rcases entry_origin n o k e' he' with hfresh | hold | ⟨ip, f, e, heff, -, he, rfl⟩
  · rw [fresh_invalid n o e' hfresh] at hvalid
    cases hvalid
  · exact ⟨e', hold, rfl, rfl, rfl⟩
  · exact ⟨e, he, effect_vector n o hroute ip f heff e hvalid⟩

section Nodes

variable (nodes : U32 → Prop)

theorem SameVector.overRelay {e e' : RoutingEntry} (h : SameVector e e') (k : Fin 256)
    (hover : e'.OverRelay nodes k) : e.OverRelay nodes k := by
  rcases hover with ⟨hvalid, hhop, hnode⟩
  rw [h.nextHop] at hhop hnode
  exact ⟨h.status ▸ hvalid, hhop, hnode⟩

theorem covers_apply (k : Fin 256) (r : Rank) (n : Node) (o : Op) (hroute : ¬ o.WritesRoute)
    (hn : n.Covers nodes k r) : (o.apply n).Covers nodes k r := by
  intro e' he' hover
  rcases valid_kept n o hroute k e' he' hover.1 with ⟨e, he, hsame⟩
  rw [hsame.rank]
  exact hn e he (hsame.overRelay nodes k hover)

/-- What is made valid as it was, and leads to a relay, was valid before. -/
theorem RoutingEntry.Revivable.overRelay {k : Fin 256} {e e' : RoutingEntry}
    (h : e.Revivable nodes k) (hover : e'.OverRelay nodes k) (hhop : e'.nextHop = e.nextHop) :
    e.OverRelay nodes k := by
  rcases hover with ⟨-, hother, hnode⟩
  rw [hhop] at hother hnode
  refine ⟨?_, hother, hnode⟩
  cases hs : e.status with
  | routeValid => rfl
  | routeInvalid => exact absurd (h hs hnode) hother

end Nodes

/-! ### What the route sections leave -/

section Sections

variable (env : Env) (s : U32) (new : Bool) (e : RoutingEntry)

/-- The hop count of a message is stored as it is. -/
theorem hopField_toNat (hopCount : Byte) : (hopCount.setWidth 32 : U32).toNat = hopCount.toNat := by
  rw [BitVec.toNat_setWidth]
  have hlt := hopCount.isLt
  exact Nat.mod_eq_of_lt (by omega)

/-- The reverse route is as good as the request says, or was better. -/
theorem reverseRoute_rank (m : RreqHeader) :
    rankOf m.srcSeq.toNat m.hopCount.toNat ≤ (e.reverseRoute env s m new).rank := by
  by_cases hm : new = true ∨ fresherReverse m e = true
  · rcases reverseRoute_accepted env s new e m hm with ⟨t, ht⟩
    rw [ht, RoutingEntry.rank, hopField_toNat]
  · rcases reverseRoute_refused env s new e m hm with ⟨t, ht⟩
    -- A refused request was older, or equal and no shorter.
    have hrefused : fresherReverse m e = false :=
      Bool.eq_false_iff.mpr (fun hfresher => hm (Or.inr hfresher))
    simp only [fresherReverse, Bool.or_eq_false_iff, Bool.and_eq_false_iff, decide_eq_false_iff_not]
      at hrefused
    rcases hrefused with ⟨⟨hseq, -⟩, hhops⟩
    have hle : m.srcSeq.toNat ≤ e.destSeq.toNat := Nat.le_of_not_lt hseq
    rw [ht, RoutingEntry.rank, rankOf_le]
    rcases Nat.lt_or_eq_of_le hle with hlt | heq
    · exact Or.inl hlt
    · refine Or.inr ⟨heq, ?_⟩
      have hnot := hhops.resolve_left (fun hne => hne (BitVec.eq_of_toNat_eq heq))
      have hfield := hopField_toNat m.hopCount
      rw [← hfield]
      exact Nat.le_of_not_lt hnot

/-- So is the forward route, if the numbers are in order. -/
theorem forwardRoute_rank (m : RrepHeader)
    (horder : seqCompare m.destSeq e.destSeq < 0 ↔ m.destSeq.toNat < e.destSeq.toNat) :
    rankOf m.destSeq.toNat m.hopCount.toNat ≤ (e.forwardRoute env s m new).rank := by
  by_cases hm : new = true ∨ fresherForward m e = true
  · rcases forwardRoute_accepted env s new e m hm with ⟨t, ht⟩
    rw [ht, RoutingEntry.rank, hopField_toNat]
  · rcases forwardRoute_refused env s new e m hm with ⟨t, ht⟩
    have hrefused : fresherForward m e = false :=
      Bool.eq_false_iff.mpr (fun hfresher => hm (Or.inr hfresher))
    simp only [fresherForward, Bool.or_eq_false_iff, decide_eq_false_iff_not] at hrefused
    have holder : seqCompare m.destSeq e.destSeq < 0 := by
      have hnot := hrefused.1.1.2
      omega
    rw [ht, RoutingEntry.rank, rankOf_le]
    exact Or.inl (horder.mp holder)

end Sections

/-! ### What a handler knows when it sends -/

/-- A request passed on offers what it offered with one hop less to go. -/
theorem forwardedRreq_offer (m : RreqHeader) (destination : Option RoutingEntry) :
    (Packet.rreq (forwardedRreq m destination)).offer = (Packet.rreq m).offer ∧
      (forwardedRreq m destination).srcIp = m.srcIp := by
  unfold forwardedRreq
  cases destination with
  | none => exact ⟨rfl, rfl⟩
  | some e =>
      simp only []
      split
      · exact ⟨rfl, rfl⟩
      · exact ⟨rfl, rfl⟩

/-- The route a message offers to whoever it is passed on to. -/
def Event.passesOn : Event → Option (Fin 256 × Rank)
  | control _ (.rreq m) => (Packet.rreq (incrementHopRreq m)).offer
  | control _ (.rrep m) => (Packet.rrep (incrementHopRrep m) []).offer
  | _ => none

section Knows

variable (nodes : U32 → Prop) (event : Event)

/-- A reverse route leads to another node, and a node that sends a packet has a route
    at least as good as the message at hand offers. -/
def Op.Knows : Op → Node → Prop
  | reverseRoute _ _ m _, n => m.srcIp ≠ n.ipAddress
  | sendUnicast _ _, n | sendBroadcast _, n =>
    ∀ k r, event.passesOn = some (k, r) → n.Covers nodes k r
  | _, _ => True

theorem knows_of_follows (o : Op) (n : Node) (hfollows : o.FollowsRoute)
    (hcovers : ∀ k r, event.passesOn = some (k, r) → n.Covers nodes k r) :
    o.Knows nodes event n := by
  cases o with
  | sendUnicast | sendBroadcast => exact hcovers
  | reverseRoute => exact absurd hfollows id
  | _ => trivial

-- What follows a route section writes no route, so the route it left is still there at
-- each send.
theorem knows_after (h : Handler) (n : Node)
    (hfollows : h.Meets Op.apply (fun o _ => o.FollowsRoute) n)
    (hcovers : ∀ k r, event.passesOn = some (k, r) → n.Covers nodes k r) :
    h.Meets Op.apply (Op.Knows nodes event) n := by
  have hkept := Prog.Meets.with_invariant
    (fun n => ∀ k r, event.passesOn = some (k, r) → n.Covers nodes k r)
    (fun o n hn hfollows k r hpasses => covers_apply nodes k r n o
      (fun hroute => by cases o <;> first | exact hfollows | exact hroute) (hn k r hpasses))
    h n hcovers hfollows
  exact Prog.Meets.imp (fun o n hboth => knows_of_follows nodes event o n hboth.1 hboth.2) h n hkept

theorem recvRreq_knows (env : Env) (s : U32) (m : RreqHeader)
    (hevent : event = .control s (.rreq m)) (n : Node) :
    (recvRreq env s m).Meets Op.apply (Op.Knows nodes event) n := by
  refine ⟨trivial, trivial, ?_⟩
  simp only [Prog.Meets]
  split
  · trivial
  · rename_i hother
    split
    · trivial
    · refine ⟨trivial, ?_, ?_⟩
      · show m.srcIp ≠ Node.ipAddress (Op.apply _ _)
        rw [apply_ipAddress]
        exact hother
      · refine knows_after nodes event _ _ (afterReverseRoute_follows env s _ _ _) ?_
        -- What is passed on is the request just taken, and the reverse route covers it.
        intro k r hpasses e he hover
        rw [hevent] at hpasses
        cases hpasses
        rcases slot_of_update _ _ m.srcIp _ rfl e he with ⟨e₀, -, rfl⟩
        exact reverseRoute_rank env s _ e₀ (incrementHopRreq m)

theorem recvRrep_knows (env : Env) (s : U32) (m : RrepHeader)
    (hevent : event = .control s (.rrep m)) (n : Node)
    (horder : (recvRrep env s m).Meets Op.apply Op.NumbersInOrder n) :
    (recvRrep env s m).Meets Op.apply (Op.Knows nodes event) n := by
  -- What the sections send is known once the forward route is written.
  have hinstall : ∀ n : Node, (installForwardRoute env s (incrementHopRrep m)).Meets Op.apply
      Op.NumbersInOrder n → (installForwardRoute env s (incrementHopRrep m)).Meets Op.apply
        (Op.Knows nodes event) n := by
    intro n horder
    rcases horder with ⟨-, horder, -⟩
    refine ⟨trivial, trivial, ?_⟩
    refine knows_after nodes event _ _ (afterForwardRoute_follows _ _) ?_
    intro k r hpasses e he hover
    rw [hevent] at hpasses
    cases hpasses
    rcases slot_of_update _ _ m.destIp _ rfl e he with ⟨e₀, he₀, rfl⟩
    exact forwardRoute_rank env s _ e₀ (incrementHopRrep m) (horder e₀ he₀)
  have hrest : ∀ n : Node, (if m.srcIp = 0 then recvHello env s (incrementHopRrep m)
      else previousHopSection env s m.destIp
        (installForwardRoute env s (incrementHopRrep m))).Meets Op.apply Op.NumbersInOrder n →
      (if m.srcIp = 0 then recvHello env s (incrementHopRrep m)
      else previousHopSection env s m.destIp
        (installForwardRoute env s (incrementHopRrep m))).Meets Op.apply
          (Op.Knows nodes event) n := by
    intro n horder
    by_cases hhello : m.srcIp = 0
    · rw [if_pos hhello]
      exact ⟨trivial, trivial, trivial⟩
    · rw [if_neg hhello] at horder ⊢
      exact ⟨trivial, trivial, hinstall _ horder.2.2⟩
  simp only [recvRrep, publishFound, Prog.Meets] at horder ⊢
  by_cases hpub : n.ipAddress = m.srcIp ∧ (n.getRoutingEntry m.destIp).isSome = true
  · rw [if_pos hpub] at horder ⊢
    exact ⟨trivial, hrest _ horder.2⟩
  · rw [if_neg hpub] at horder ⊢
    exact hrest n horder

/-- Every handler knows of a route when it sends. -/
theorem handler_knows (n : Node) (input : Input) (horder : OpsMeet Op.NumbersInOrder n input) :
    OpsMeet (Op.Knows nodes input.event) n input := by
  -- Without a request or a reply at hand there is nothing to know.
  have hquiet : (∀ s m, input.event ≠ .control s (.rreq m)) → input.event.passesOn = none →
      OpsMeet (Op.Knows nodes input.event) n input := by
    intro hrreq hnone
    refine Prog.Meets.imp (fun o n hguard => ?_) _ n (handler_guard n input)
    cases o with
    | reverseRoute env s m new =>
        rcases hguard.1 with ⟨m₀, hevent, -⟩
        exact absurd hevent (hrreq s m₀)
    | sendUnicast | sendBroadcast =>
        intro k r hpasses
        rw [hnone] at hpasses
        cases hpasses
    | _ => trivial
  rcases input with ⟨env, event⟩
  cases event with
  | control s message =>
      cases message with
      | rreq m =>
          exact incomingControlMessage_meets n env s _ (.rreq m) fun _ =>
            recvRreq_knows nodes _ env s m rfl n
      | rrep m =>
          simp only [OpsMeet, Input.handler, incomingControlMessage, Prog.Meets] at horder ⊢
          by_cases hown : s = n.ipAddress
          · rw [if_pos hown]
            trivial
          · rw [if_neg hown] at horder ⊢
            exact recvRrep_knows nodes _ env s m rfl n horder
      | rerr => exact hquiet (fun _ _ h => by cases h) rfl
  | data | outgoing | forwarded | search | wait | expire | rreqIdExpire | hello =>
      exact hquiet (fun _ _ h => by cases h) rfl

end Knows

/-! ### What the rule keeps of a node -/

/-- The request the thread sends next is the node's own. -/
def SearchThread.AsksAs (ip : U32) (t : SearchThread) : Prop :=
  match t.stage with
  | .starting => True
  | .ring rreq _ | .retry rreq _ => rreq.srcIp = ip

section Sound

variable (nodes : U32 → Prop) (offers : U32 → Fin 256 → Rank → Prop)

/-- No route leads from a node to itself, and one over a relay is worse than
    something its next hop has offered and as good as all the node has offered. -/
structure RouteSound (n : Node) : Prop where
  flood : FloodReady n
  threads : ∀ t ∈ n.threads, t.AsksAs n.ipAddress
  requests : ∀ c ∈ n.log, ∀ m, c.packet = some (.rreq m) → nodes m.srcIp
  own : ∀ e, n.routes.slots (slotOf n.ipAddress) = some e → e.status = .routeInvalid
  announced : ∀ k r, n.Offered k r → n.Covers nodes k r
  backed : ∀ k e, n.routes.slots k = some e → e.OverRelay nodes k →
    ∃ r, offers e.nextHop k r ∧ e.rank < r

/-- The sender is another node, and the message offers what the sender has offered. -/
structure HeardFrom (ip : U32) (s : U32) (packet : Packet) : Prop where
  sender : slotOf s ≠ slotOf ip
  origin : ∀ m, packet = .rreq m → nodes m.srcIp
  offered : ∀ k r, packet.offer = some (k, r) → offers s k r

/-- What the event brings a node with this address has been heard from another, and
    no other shares its slot. -/
structure Heard (event : Event) (ip : U32) : Prop where
  rreq : ∀ s m, event = .control s (.rreq m) → HeardFrom nodes offers ip s (.rreq m)
  rrep : ∀ s m, event = .control s (.rrep m) → HeardFrom nodes offers ip s (.rrep m [])
  self : nodes ip
  distinct : ∀ ip', nodes ip' → slotOf ip' = slotOf ip → ip' = ip

end Sound

section Apply

variable {nodes : U32 → Prop} {offers : U32 → Fin 256 → Rank → Prop} {n : Node}

/-- No route over a relay stands in the node's own slot. -/
theorem RouteSound.covers_own (h : RouteSound nodes offers n) (r : Rank) :
    n.Covers nodes (slotOf n.ipAddress) r := by
  intro e he hover
  have hvalid := hover.1
  rw [h.own e he] at hvalid
  cases hvalid

/-- What a thread is about to ask, it asks as the node. -/
theorem asks_own (hn : RouteSound nodes offers n) (t : SearchThread) (ht : t ∈ n.threads)
    (rreq : RreqHeader) (ttl : BitVec 11) (stage : SearchStage) (h : t.Asks n rreq ttl stage) :
    rreq.srcIp = n.ipAddress ∧ { t with stage := stage }.AsksAs n.ipAddress := by
  have hasks := hn.threads t ht
  unfold SearchThread.AsksAs at hasks
  -- The request is the thread's own, or made from the node's address just now.
  cases h with
  | ring ttl hle hstage =>
      have hown : rreq.srcIp = n.ipAddress := by
        rcases hstage with hstage | ⟨-, e, -, rfl, -⟩
        · rw [hstage] at hasks
          exact hasks
        · rfl
      exact ⟨hown, hown⟩
  | retry i hstage =>
      have hown : rreq.srcIp = n.ipAddress := by
        rcases hstage with hstage | ⟨ttl, hstage⟩ | ⟨-, e, -, rfl⟩
        · rw [hstage] at hasks
          exact hasks
        · rw [hstage] at hasks
          exact hasks
        · rfl
      exact ⟨hown, hown⟩

/-- What an operation sends: it offers nothing better than the route the node has, and
    a request comes from a node. -/
structure PacketSound (nodes : U32 → Prop) (n : Node) (packet : Packet) : Prop where
  covered : ∀ k r, packet.offer = some (k, r) → n.Covers nodes k r
  origin : ∀ m, packet = .rreq m → nodes m.srcIp

theorem packetSound_of_silent (packet : Packet) (h : packet.offer = none) :
    PacketSound nodes n packet := by
  refine ⟨fun k r hoffer => ?_, fun m hm => ?_⟩
  · rw [h] at hoffer
    cases hoffer
  · rw [hm] at h
    cases h

/-- A reply about the node itself. -/
theorem packetSound_own (hn : RouteSound nodes offers n) (m : RrepHeader) (beyond : List Byte)
    (hown : slotOf m.destIp = slotOf n.ipAddress) : PacketSound nodes n (.rrep m beyond) := by
  refine ⟨fun k r hoffer => ?_, fun m hm => by cases hm⟩
  cases hoffer
  rw [hown]
  exact hn.covers_own _

/-- The answer from the table offers the route that stands there. -/
theorem packetSound_table (hn : RouteSound nodes offers n) (env : Env) (m : RreqHeader)
    (e : RoutingEntry) (he : n.getRoutingEntry m.destIp = some e) :
    PacketSound nodes n (intermediateRrep env (incrementHopRreq m) e) := by
  refine ⟨fun k r hoffer => ?_, fun m hm => by cases hm⟩
  cases hoffer
  intro e' he' _
  cases he.symm.trans he'
  -- The stored count fits the field it is sent in.
  have hsmall := hn.flood.hops _ e he
  have hfield : (e.hopCount.setWidth 8).toNat = e.hopCount.toNat := by
    rw [BitVec.toNat_setWidth]
    exact Nat.mod_eq_of_lt hsmall
  show rankOf e.destSeq.toNat (e.hopCount.setWidth 8).toNat ≤ e.rank
  rw [hfield]
  exact le_refl _

theorem packet_of_isRouteCall (c : ApiCall) (h : c.IsRouteCall) : c.packet = none := by
  cases c with
  | addUnicastRoutingEntry | deleteEntry => rfl
  | sendUnicast | sendBroadcast => cases h

theorem calls_sound (event : Event) (o : Op) (hn : RouteSound nodes offers n)
    (hguard : o.Guard event n) (hknows : o.Knows nodes event n)
    (hheard : Heard nodes offers event n.ipAddress) :
    ∀ c ∈ o.calls n, ∀ packet, c.packet = some packet → PacketSound nodes n packet := by
  intro c hc packet hpacket
  cases o with
  | sendRreq id rreq ttl stage =>
      rcases List.mem_singleton.mp hc with rfl
      cases hpacket
      rcases hguard with ⟨-, t, ht, -, hasks⟩
      -- A search tells of the node itself, which has no route to itself.
      have hown := (asks_own hn t ht rreq ttl stage hasks).1
      refine ⟨fun k r hoffer => ?_, fun m hm => ?_⟩
      · cases hoffer
        show n.Covers nodes (slotOf rreq.srcIp) _
        rw [hown]
        exact hn.covers_own _
      · cases hm
        show nodes rreq.srcIp
        rw [hown]
        exact hheard.self
  | sendUnicast dest packet =>
      rcases List.mem_singleton.mp hc with rfl
      cases hpacket
      cases hguard with
      | ownReply env m hevent hown => exact packetSound_own hn _ _ rfl
      | tableReply env m e hevent hother hfound => exact packetSound_table hn env m e hfound
      -- What is passed on was learnt from the message, so the table covers it.
      | gratuitousReply env s m hevent =>
          refine ⟨fun k r hoffer => hknows k r ?_, fun m hm => by cases hm⟩
          rw [hevent]
          exact hoffer
      | passedOn s m hevent =>
          refine ⟨fun k r hoffer => hknows k r ?_, fun m hm => by cases hm⟩
          rw [hevent]
          exact hoffer
      | error | noError | timing => exact packetSound_of_silent _ rfl
  | sendBroadcast packet =>
      rcases List.mem_singleton.mp hc with rfl
      cases hpacket
      cases hguard with
      | request s m hevent httl =>
          rcases forwardedRreq_offer (incrementHopRreq m) (n.getRoutingEntry m.destIp)
            with ⟨hoffer', horigin⟩
          refine ⟨fun k r hoffer => hknows k r ?_, fun m' hm => ?_⟩
          · rw [hevent]
            exact hoffer'.symm.trans hoffer
          · cases hm
            rw [horigin]
            exact (hheard.rreq s m hevent).origin m rfl
      | hello => exact packetSound_own hn _ _ rfl
      | error | noError => exact packetSound_of_silent _ rfl
  | _ =>
      rw [packet_of_isRouteCall c (calls_isRouteCall n _ id c hc)] at hpacket
      cases hpacket

/-! ### What an operation leaves in the table -/

/-- All offers of the slot are no better than the rank, and the next hop has offered
    something better. -/
def SoundVector (offers : U32 → Fin 256 → Rank → Prop) (k : Fin 256) (n : Node)
    (e : RoutingEntry) : Prop :=
  (∀ r, n.Offered k r → r ≤ e.rank) ∧ ∃ r, offers e.nextHop k r ∧ e.rank < r

/-- A route that was there is sound. -/
theorem soundVector_kept (hn : RouteSound nodes offers n) (k : Fin 256) (e e' : RoutingEntry)
    (he : n.routes.slots k = some e) (hover : e.OverRelay nodes k)
    (hhop : e'.nextHop = e.nextHop) (hrank : e'.rank = e.rank) : SoundVector offers k n e' := by
  unfold SoundVector
  rw [hhop, hrank]
  exact ⟨fun r hr => hn.announced k r hr e he hover, hn.backed k e he hover⟩

/-- One hop more is worse. -/
theorem rankOf_succ (seq : Nat) (hops : Byte) (h : hops + 1 ≠ 0) :
    rankOf seq (hops + 1).toNat < rankOf seq hops.toNat := by
  rw [rankOf_lt]
  refine Or.inr ⟨rfl, ?_⟩
  have hone : (1 : Byte).toNat = 1 := rfl
  have hlt := hops.isLt
  have hne : (hops + 1).toNat ≠ 0 := fun hzero => h (BitVec.eq_of_toNat_eq hzero)
  rw [BitVec.toNat_add, hone] at hne ⊢
  omega

/-- A route that takes the offer of its next hop with one hop more is sound. -/
theorem soundVector_taken (k : Fin 256) (n : Node) (e' : RoutingEntry) (seq : Nat) (hops : Byte)
    (hwrap : hops + 1 ≠ 0) (hrank : e'.rank = rankOf seq (hops + 1).toNat)
    (hoffer : offers e'.nextHop k (rankOf seq hops.toNat))
    (hbest : ∀ r, n.Offered k r → r ≤ rankOf seq (hops + 1).toNat) :
    SoundVector offers k n e' := by
  unfold SoundVector
  rw [hrank]
  exact ⟨hbest, _, hoffer, rankOf_succ _ _ hwrap⟩

theorem reverseRoute_sound (event : Event) (hn : RouteSound nodes offers n) (env : Env) (s : U32)
    (m : RreqHeader) (new : Bool) (hguard : (Op.reverseRoute env s m new).Guard event n)
    (hok : RouteOk nodes (.reverseRoute env s m new) n)
    (hheard : Heard nodes offers event n.ipAddress)
    (e : RoutingEntry) (he : n.getRoutingEntry m.srcIp = some e)
    (hover : (e.reverseRoute env s m new).OverRelay nodes (slotOf m.srcIp)) :
    SoundVector offers (slotOf m.srcIp) n (e.reverseRoute env s m new) := by
  rcases hguard.1 with ⟨m₀, hevent, rfl⟩
  have hrule := hok e he
  -- Either the offer of the sender is taken, or the route stays what it was.
  by_cases hm : new = true ∨ fresherReverse (incrementHopRreq m₀) e = true
  · rw [if_pos hm] at hrule
    rcases reverseRoute_accepted env s new e _ hm with ⟨t, ht⟩
    rw [ht]
    refine soundVector_taken _ n _ m₀.srcSeq.toNat m₀.hopCount hrule.1 ?_
      ((hheard.rreq s m₀ hevent).offered _ _ rfl) (fun r hr => hrule.2 (_, r) hr rfl)
    rw [RoutingEntry.rank, hopField_toNat]
    rfl
  · rw [if_neg hm] at hrule
    rcases reverseRoute_refused env s new e _ hm with ⟨t, ht⟩
    rw [ht] at hover ⊢
    exact soundVector_kept hn _ e _ he (hrule.overRelay nodes hover rfl) rfl rfl

theorem forwardRoute_sound (event : Event) (hn : RouteSound nodes offers n) (env : Env) (s : U32)
    (m : RrepHeader) (new : Bool) (hguard : (Op.forwardRoute env s m new).Guard event n)
    (hok : RouteOk nodes (.forwardRoute env s m new) n)
    (hheard : Heard nodes offers event n.ipAddress)
    (e : RoutingEntry) (he : n.getRoutingEntry m.destIp = some e)
    (hover : (e.forwardRoute env s m new).OverRelay nodes (slotOf m.destIp)) :
    SoundVector offers (slotOf m.destIp) n (e.forwardRoute env s m new) := by
  rcases hguard.1 with ⟨m₀, hevent, rfl⟩
  have hrule := hok.2 e he
  by_cases hm : new = true ∨ fresherForward (incrementHopRrep m₀) e = true
  · rw [if_pos hm] at hrule
    rcases forwardRoute_accepted env s new e _ hm with ⟨t, ht⟩
    rw [ht]
    -- The vector is the one the sender has offered, one hop longer.
    refine soundVector_taken _ n _ m₀.destSeq.toNat m₀.hopCount hrule.1 ?_
      ((hheard.rrep s m₀ hevent).offered _ _ rfl) (fun r hr => hrule.2 (_, r) hr rfl)
    rw [RoutingEntry.rank, hopField_toNat]
    rfl
  · rw [if_neg hm] at hrule
    rcases forwardRoute_refused env s new e _ hm with ⟨t, ht⟩
    rw [ht] at hover ⊢
    exact soundVector_kept hn _ e _ he (hrule.overRelay nodes hover rfl) rfl rfl

theorem hello_sound (hn : RouteSound nodes offers n) (env : Env) (m : RrepHeader) (new : Bool)
    (hok : RouteOk nodes (.hello env m new) n) (e : RoutingEntry)
    (he : n.getRoutingEntry m.destIp = some e)
    (hover : (e.hello env m new).OverRelay nodes (slotOf m.destIp)) :
    SoundVector offers (slotOf m.destIp) n (e.hello env m new) := by
  by_cases hm : takesHello m new e
  · rcases hello_accepted env new e m hm with ⟨t, ht⟩
    rw [ht] at hover ⊢
    have hbefore : e.OverRelay nodes (slotOf m.destIp) := hover
    refine soundVector_kept hn _ e _ he hbefore rfl ?_
    show rankOf m.destSeq.toNat e.hopCount.toNat = e.rank
    rw [hok e he hm hbefore]
    rfl
  · rw [hello_refused env new e m hm] at hover ⊢
    exact soundVector_kept hn _ e e he hover rfl rfl

/-- Every route over a relay that an operation leaves is sound. -/
theorem entries_sound (event : Event) (o : Op) (hn : RouteSound nodes offers n)
    (hguard : o.Guard event n) (hok : RouteOk nodes o n)
    (hheard : Heard nodes offers event n.ipAddress)
    (k : Fin 256) (e' : RoutingEntry) (he' : (o.apply n).routes.slots k = some e')
    (hover : e'.OverRelay nodes k) : SoundVector offers k n e' := by
  -- Only four operations write a vector; the rest keep it or break the route.
  by_cases hroute : o.WritesRoute
  · rcases entry_origin n o k e' he' with hfresh | hold | ⟨ip, f, e, heff, rfl, he, rfl⟩
    · have hvalid := hover.1
      rw [fresh_invalid n o e' hfresh] at hvalid
      cases hvalid
    · exact soundVector_kept hn k e' e' hold hover rfl rfl
    · cases o with
      | previousHop env s listed new =>
          cases heff
          rcases previousHop_eq env new e listed with ⟨t, ht⟩
          rw [ht] at hover ⊢
          exact soundVector_kept hn _ e _ he ((hok e he).overRelay nodes hover rfl) rfl rfl
      | reverseRoute env s m new =>
          cases heff
          exact reverseRoute_sound event hn env s m new hguard hok hheard e he hover
      | hello env m new =>
          cases heff
          exact hello_sound hn env m new hok e he hover
      | forwardRoute env s m new =>
          cases heff
          exact forwardRoute_sound event hn env s m new hguard hok hheard e he hover
      | _ => exact absurd hroute id
  · rcases valid_kept n o hroute k e' he' hover.1 with ⟨e, he, hsame⟩
    exact soundVector_kept hn k e e' he (hsame.overRelay nodes k hover) hsame.nextHop hsame.rank

/-- No operation makes a route from the node to itself. -/
theorem own_apply (event : Event) (o : Op) (hn : RouteSound nodes offers n)
    (hguard : o.Guard event n) (hok : RouteOk nodes o n) (hknows : o.Knows nodes event n)
    (hheard : Heard nodes offers event n.ipAddress) (e' : RoutingEntry)
    (he' : (o.apply n).routes.slots (slotOf n.ipAddress) = some e') :
    e'.status = .routeInvalid := by
  by_cases hroute : o.WritesRoute
  · rcases entry_origin n o _ e' he' with hfresh | hold | ⟨ip, f, e, heff, hslot, he, rfl⟩
    · exact fresh_invalid n o e' hfresh
    · exact hn.own e' hold
    · -- None of the four writes to the node's own slot, unless it keeps the status.
      cases o with
      | previousHop env s listed new =>
          cases heff
          rcases hguard.1 with ⟨m, hevent, -⟩ | ⟨m, hevent, -⟩
          · exact absurd hslot.symm (hheard.rreq ip m hevent).sender
          · exact absurd hslot.symm (hheard.rrep ip m hevent).sender
      | reverseRoute env s m new =>
          cases heff
          rcases hguard.1 with ⟨m₀, hevent, rfl⟩
          -- The node never takes a request of its own.
          have hnode : nodes m₀.srcIp := (hheard.rreq s m₀ hevent).origin m₀ rfl
          exact absurd (hheard.distinct m₀.srcIp hnode hslot.symm) hknows
      | hello env m new =>
          cases heff
          by_cases hm : takesHello m new e
          · rcases hello_accepted env new e m hm with ⟨t, ht⟩
            rw [ht]
            exact hn.own e he
          · rw [hello_refused env new e m hm]
            exact hn.own e he
      | forwardRoute env s m new =>
          cases heff
          exact absurd hslot.symm hok.1
      | _ => exact absurd hroute id
  · cases hs : e'.status with
    | routeInvalid => rfl
    | routeValid =>
        rcases valid_kept n o hroute _ e' he' hs with ⟨e, he, hsame⟩
        have hinvalid := hn.own e he
        rw [← hsame.status, hs] at hinvalid
        cases hinvalid

/-- The sections that write a route send no packet. -/
theorem calls_silent (n : Node) (o : Op) (hroute : o.WritesRoute) :
    ∀ c ∈ o.calls n, c.packet = none := by
  intro c hc
  refine packet_of_isRouteCall c (calls_isRouteCall n o (fun hsends => ?_) c hc)
  cases o with
  | sendRreq | sendUnicast | sendBroadcast => exact hroute
  | _ => exact hsends

/-- Every operation that keeps to the rule keeps the node sound. -/
theorem routeSound_apply (event : Event) (o : Op) (hn : RouteSound nodes offers n)
    (hguard : o.Guard event n) (hok : RouteOk nodes o n) (hknows : o.Knows nodes event n)
    (hheard : Heard nodes offers event n.ipAddress) : RouteSound nodes offers (o.apply n) where
  flood := floodReady_apply event o n hn.flood hguard
  threads := by
    intro t ht
    rw [apply_ipAddress]
    rcases apply_threads n o t ht with hold | ⟨dest, -, rfl⟩ | ⟨t₀, -, rreq, ttl, rfl, -, -⟩
    · exact hn.threads t hold
    · trivial
    · rcases hguard with ⟨-, t₁, ht₁, -, hasks⟩
      exact (asks_own hn t₁ ht₁ rreq ttl t.stage hasks).2
  requests := by
    intro c hc m hpacket
    rw [apply_log] at hc
    rcases List.mem_append.mp hc with hnew | hold
    · exact (calls_sound event o hn hguard hknows hheard c hnew _ hpacket).origin m rfl
    · exact hn.requests c hold m hpacket
  own := by
    intro e he
    rw [apply_ipAddress] at he
    exact own_apply event o hn hguard hok hknows hheard e he
  announced := by
    intro k r hoffered
    rcases (offered_iff k r _).mp hoffered with ⟨c, hc, packet, hpacket, hoffer⟩
    rw [apply_log] at hc
    rcases List.mem_append.mp hc with hnew | hold
    · -- No operation both sends and writes a route, so the table is as it was.
      by_cases hroute : o.WritesRoute
      · rw [calls_silent n o hroute c hnew] at hpacket
        cases hpacket
      · exact covers_apply nodes k r n o hroute
          ((calls_sound event o hn hguard hknows hheard c hnew packet hpacket).covered k r hoffer)
    · intro e he hover
      exact (entries_sound event o hn hguard hok hheard k e he hover).1 r
        ((offered_iff k r n).mpr ⟨c, hold, packet, hpacket, hoffer⟩)
  backed := fun k e he hover => (entries_sound event o hn hguard hok hheard k e he hover).2

/-- A step whose operations keep to the rule keeps the node sound. -/
theorem routeSound_step (input : Input) (hn : RouteSound nodes offers n)
    (horder : OpsMeet Op.NumbersInOrder n input) (hok : OpsMeet (RouteOk nodes) n input)
    (hheard : Heard nodes offers input.event n.ipAddress) :
    RouteSound nodes offers (step n input) := by
  have hmeets := ((handler_guard n input).and _ _ hok).and _ _ (handler_knows nodes n input horder)
  refine (Prog.exec_invariant Op.apply _
    (fun n' => RouteSound nodes offers n' ∧ n'.ipAddress = n.ipAddress) ?_ input.handler n
    ⟨hn, rfl⟩ hmeets).1
  rintro o n' ⟨hn', hip⟩ ⟨⟨hguard, hok⟩, hknows⟩
  rw [← hip] at hheard
  refine ⟨routeSound_apply input.event o hn' hguard hok hknows hheard, ?_⟩
  rw [apply_ipAddress, hip]

end Apply

/-! ### Runs of the network -/

section Runs

variable {ι : Type}

/-- Some node with the address has offered the route. -/
def Network.Offers (net : Network ι) (ip : U32) (k : Fin 256) (r : Rank) : Prop :=
  ∃ i, (net i).ipAddress = ip ∧ (net i).Offered k r

/-- All nodes are sound, and their addresses differ in the top octet. -/
structure NetworkSound (net : Network ι) : Prop where
  nodes : ∀ i, RouteSound net.HasAddress net.Offers (net i)
  distinct : Function.Injective fun i => slotOf (net i).ipAddress

theorem networkSound_start (net : Network ι) (hstart : NetworkStart net) : NetworkSound net := by
  refine ⟨fun i => ?_, hstart.distinct⟩
  rcases hstart.boot i with ⟨ip, bcast, hello, hboot⟩
  have hnone := Node.boot_slots_ne ip bcast hello
  rw [hboot]
  refine ⟨⟨fun k e he => absurd he (hnone k e), fun t ht => absurd ht List.not_mem_nil⟩,
    fun t ht => absurd ht List.not_mem_nil, fun c hc => absurd hc List.not_mem_nil,
    fun e he => absurd he (hnone _ e), ?_, fun k e he => absurd he (hnone k e)⟩
  intro k r hoffered
  exact absurd hoffered List.not_mem_nil

/-- Nodes with one address are one node. -/
theorem NetworkSound.unique {net : Network ι} (h : NetworkSound net) (i j : ι)
    (hip : (net i).ipAddress = (net j).ipAddress) : i = j :=
  h.distinct (congrArg slotOf hip)

/-- A packet on its way brings what its sender has offered. -/
theorem heard_of_carried {net : Network ι} (h : NetworkSound net) (a : NetInput ι)
    (hcarried : Carried net a)
    (hother : ∀ message, a.input.event ≠ .control (net a.node).ipAddress message) :
    Heard net.HasAddress net.Offers a.input.event (net a.node).ipAddress := by
  -- Whatever is in a packet the sender has sent, and the sender is not the receiver.
  have hfrom : ∀ (s : U32) (message : ControlMessage) (packet' : Packet),
      a.input.event = .control s message →
      (∀ packet : Packet, packet.Carries message → packet.offer = packet'.offer ∧
        ∀ m, packet' = .rreq m → packet = .rreq m) →
      HeardFrom net.HasAddress net.Offers (net a.node).ipAddress s packet' := by
    intro s message packet' hevent hsame
    unfold Carried at hcarried
    rw [hevent] at hcarried
    rcases hcarried with ⟨i, packet, rfl, hpacket, hsent⟩
    rcases hsame packet hpacket with ⟨hoffer, hrreq⟩
    have hcall : ∃ c ∈ (net i).log, c.packet = some packet := by
      rcases hsent with hsent | hsent
      · exact ⟨_, hsent, rfl⟩
      · exact ⟨_, hsent, rfl⟩
    rcases hcall with ⟨c, hc, hcpacket⟩
    refine ⟨fun hslot => ?_, fun m hm => ?_, fun k r hr => ?_⟩
    · rw [h.distinct hslot] at hevent
      exact hother message hevent
    · rw [hrreq m hm] at hcpacket
      exact (h.nodes i).requests c hc m hcpacket
    · rw [← hoffer] at hr
      exact ⟨i, rfl, (offered_iff k r _).mpr ⟨c, hc, packet, hcpacket, hr⟩⟩
  refine ⟨fun s m hevent => ?_, fun s m hevent => ?_, ⟨a.node, rfl⟩, ?_⟩
  · refine hfrom s _ _ hevent (fun packet hpacket => ?_)
    cases packet with
    | rreq m' =>
        rw [show m' = m from hpacket]
        exact ⟨rfl, fun m'' hm => hm⟩
    | rrep | rerr | null | timing => exact absurd hpacket id
  · refine hfrom s _ _ hevent (fun packet hpacket => ?_)
    cases packet with
    | rrep m' beyond =>
        rw [show m' = m from hpacket]
        exact ⟨rfl, fun m'' hm => by cases hm⟩
    | rreq | rerr | null | timing => exact absurd hpacket id
  · rintro ip ⟨i, rfl⟩ hslot
    rw [h.distinct hslot]

/-- The routes of a sound network do not run in a circle. -/
theorem NetworkSound.loopFree {net : Network ι} (h : NetworkSound net) (d : U32) :
    LoopFree d net := by
  have hfeasible : Feasible (fun i => slotOf (net i).ipAddress = slotOf d)
      (fun i j r => ∃ e, (net i).getRoutingEntry d = some e ∧ e.status = .routeValid ∧
        e.nextHop = (net j).ipAddress ∧ r = e.rank)
      (fun i r => (net i).Offered (slotOf d) r) := by
    refine ⟨?_, ?_, ?_⟩
    · rintro i j r hfinal ⟨e, he, hvalid, -, -⟩
      rw [Node.getRoutingEntry_eq, ← hfinal] at he
      rw [(h.nodes i).own e he] at hvalid
      cases hvalid
    · rintro i j r o ⟨e, he, hvalid, hhop, rfl⟩ hfinal hoffered
      rw [← hhop] at hfinal
      exact (h.nodes i).announced _ o hoffered e he ⟨hvalid, hfinal, ⟨j, hhop.symm⟩⟩
    · rintro i j r ⟨e, he, hvalid, hhop, rfl⟩ hfinal
      rw [← hhop] at hfinal
      rcases (h.nodes i).backed _ e he ⟨hvalid, hfinal, ⟨j, hhop.symm⟩⟩ with ⟨o, ⟨j', hj', ho⟩, hlt⟩
      -- The next hop is the one node with that address.
      rw [h.unique j' j (hj'.trans hhop)] at ho
      exact ⟨o, ho, hlt⟩
  intro i hcycle
  refine hfeasible.acyclic i (Relation.TransGen.mono ?_ i i hcycle)
  rintro i j ⟨e, he, hvalid, hhop⟩
  exact ⟨e.rank, e, he, hvalid, hhop, rfl⟩

variable [DecidableEq ι]

theorem networkSound_step (net : Network ι) (a : NetInput ι) (h : NetworkSound net)
    (hcarried : Carried net a) (horder : StepInOrder net a) (hok : StepRouteOk net a) :
    NetworkSound (netStep net a) := by
  have hip : ∀ i, (netStep net a i).ipAddress = (net i).ipAddress := by
    intro i
    by_cases hnode : i = a.node
    · rw [hnode, netStep_self, step_ipAddress]
    · rw [netStep_ne net a i hnode]
  have hnodes : (netStep net a).HasAddress = net.HasAddress := by
    funext ip
    unfold Network.HasAddress
    simp only [hip]
  -- Offers stay made.
  have hoffers : ∀ ip k r, net.Offers ip k r → (netStep net a).Offers ip k r := by
    rintro ip k r ⟨i, hi, hoffered⟩
    rcases (offered_iff k r _).mp hoffered with ⟨c, hc, hpacket⟩
    refine ⟨i, (hip i).trans hi, (offered_iff k r _).mpr ⟨c, ?_, hpacket⟩⟩
    by_cases hnode : i = a.node
    · rw [hnode, netStep_self, log_step]
      rw [hnode] at hc
      exact List.mem_append_right _ hc
    · rw [netStep_ne net a i hnode]
      exact hc
  have hsound : ∀ i, RouteSound net.HasAddress net.Offers (netStep net a i) := by
    intro i
    by_cases hnode : i = a.node
    · rw [hnode, netStep_self]
      by_cases hown : ∃ message, a.input.event = .control (net a.node).ipAddress message
      · rcases hown with ⟨message, hevent⟩
        have hstep := step_own (net a.node) a.input.env message
        rw [← hevent] at hstep
        rw [hstep]
        exact h.nodes a.node
      · have hother := fun message hevent => hown ⟨message, hevent⟩
        exact routeSound_step a.input (h.nodes a.node) horder hok
          (heard_of_carried h a hcarried hother)
    · rw [netStep_ne net a i hnode]
      exact h.nodes i
  refine ⟨fun i => ?_, ?_⟩
  · rw [hnodes]
    have hi := hsound i
    refine ⟨hi.flood, hi.threads, hi.requests, hi.own, hi.announced, fun k e he hover => ?_⟩
    rcases hi.backed k e he hover with ⟨r, hr, hlt⟩
    exact ⟨r, hoffers _ _ _ hr, hlt⟩
  · simp only [hip]
    exact h.distinct

/-- In every state of every run from start-up in which what arrives has been sent, the
    numbers compared are in order and every operation keeps to the rule, the next hops
    to an address do not run in a circle. -/
theorem loop_free (net : Network ι) (hstart : NetworkStart net) (inputs : List (NetInput ι))
    (hcarried : AllSteps netStep Carried net inputs)
    (horder : AllSteps netStep StepInOrder net inputs)
    (hok : AllSteps netStep StepRouteOk net inputs) (d : U32) :
    LoopFree d (run netStep net inputs) := by
  have hsound : NetworkSound net := networkSound_start net hstart
  clear hstart
  induction inputs generalizing net with
  | nil => exact hsound.loopFree d
  | cons a rest ih =>
      exact ih (netStep net a) hcarried.2 horder.2 hok.2
        (networkSound_step net a hsound hcarried.1 horder.1 hok.1)

end Runs

/-! ### A second reply with the same number -/

/-- The first of three nodes searches for the third, asks twice and is answered. -/
def searchAnswered : List (NetInput (Fin 3)) :=
  [⟨0, { env := .clear, event := .outgoing 0x03000000 }⟩,
    ⟨0, { env := .clear, event := .search 1 }⟩, ⟨0, { env := .clear, event := .search 1 }⟩,
    ⟨2, receive 0x01000000 (.rreq firstRequest)⟩,
    ⟨0, receive 0x03000000 (replyAfter 0 0x03000000 1 0x01000000)⟩]

/-- The second node searches for the third, too, and the first answers it from its
    table. Then the first one's second request arrives at the second, late, which now
    answers from its table. -/
def lateRequest : List (NetInput (Fin 3)) :=
  [⟨1, { env := .clear, event := .outgoing 0x03000000 }⟩,
    ⟨1, { env := .clear, event := .search 1 }⟩,
    ⟨0, receive 0x02000000 (.rreq { firstRequest with srcIp := 0x02000000 })⟩,
    ⟨1, receive 0x01000000 (replyAfter 1 0x03000000 1 0x02000000)⟩,
    ⟨1, receive 0x01000000 (.rreq { firstRequest with rreqId := 2, ttl := 3 })⟩,
    ⟨0, receive 0x02000000 (replyAfter 2 0x03000000 1 0x01000000)⟩]

theorem boot_networkStart : NetworkStart (Network.boot 3) := by
  have hdistinct : ∀ i j : Fin 3, slotOf (Network.boot 3 i).ipAddress =
      slotOf (Network.boot 3 j).ipAddress → i = j := by
    decide
  exact ⟨fun i => ⟨_, _, _, rfl⟩, hdistinct⟩

theorem carried_searchAnswered : AllSteps netStep Carried (Network.boot 3) searchAnswered :=
  ⟨trivial, trivial, trivial,
    ⟨0, .rreq firstRequest, rfl, rfl, Or.inl (by decide +kernel)⟩,
    ⟨2, .rrep _ [], rfl, rfl, Or.inr (by decide +kernel)⟩, trivial⟩

theorem loop_free_searchAnswered :
    LoopFree 0x03000000 (run netStep (Network.boot 3) searchAnswered) :=
  loop_free (Network.boot 3) boot_networkStart searchAnswered carried_searchAnswered
    (by decide +kernel) (by decide +kernel) 0x03000000

/-- The late reply carries the number the first node has stored, is one hop longer than
    what that node has told the second, and is taken: each is the other's next hop. -/
theorem not_loop_free_equalNumber :
    ¬ ∀ (ι : Type) [DecidableEq ι] [Fintype ι] (net : Network ι) (inputs : List (NetInput ι)),
      NetworkStart net → AllSteps netStep Carried net inputs →
        AllSteps netStep StepInOrder net inputs → ∀ d, LoopFree d (run netStep net inputs) := by
  intro h
  have hlate : AllSteps netStep Carried (run netStep (Network.boot 3) searchAnswered)
      lateRequest :=
    ⟨trivial, trivial, ⟨1, .rreq _, rfl, rfl, Or.inl (by decide +kernel)⟩,
      ⟨0, .rrep _ [0, 0, 0, 0], rfl, rfl, Or.inr (by decide +kernel)⟩,
      ⟨0, .rreq _, rfl, rfl, Or.inl (by decide +kernel)⟩,
      ⟨1, .rrep _ [0, 0, 0, 0], rfl, rfl, Or.inr (by decide +kernel)⟩, trivial⟩
  have hcarried := (allSteps_append _ _ _ _ _).mpr ⟨carried_searchAnswered, hlate⟩
  have hfree := h (Fin 3) (Network.boot 3) (searchAnswered ++ lateRequest) boot_networkStart
    hcarried (by decide +kernel) 0x03000000
  -- Node 0 routes over node 1, and node 1 back over node 0.
  have hover : RoutesOver 0x03000000
      (run netStep (Network.boot 3) (searchAnswered ++ lateRequest)) 0 1 :=
    ⟨_, rfl, by decide +kernel, by decide +kernel⟩
  have hback : RoutesOver 0x03000000
      (run netStep (Network.boot 3) (searchAnswered ++ lateRequest)) 1 0 :=
    ⟨_, rfl, by decide +kernel, by decide +kernel⟩
  exact hfree 0 (.head hover (.single hback))

end OpenManet
