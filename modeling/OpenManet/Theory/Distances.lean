import OpenManet.Library.Hops
import OpenManet.Theory.Flooding
import OpenManet.Theory.LoopFreedom
import OpenManet.Theory.Neighbours
import OpenManet.Theory.RequestOrigins

/-!
# Hop Counts and Distances

A hop count is meant to be the length of a route. In a network with links it cannot be
less than the distance, however requests and replies travel: each node that passes a
message on adds one, and an answer from a table starts from the count that stands there.

The code is one off. The entry of a neighbour is made with hop count 0, and a hello that
comes later makes its number valid without touching the count, so that the node answers
for its neighbour as if it were the neighbour itself. This slip does not add up, though:
what is learnt from such an answer is again one short at most. So the distance to a
destination is at most the stored count plus one, in every state of every run.

A request is exact, and its TTL goes down as its count goes up. A ring of the search is
therefore heard by no node farther away than the TTL it was sent with.

Nodes with the address 0 are left out, and so are packets for it: a reply that names the
originator 0 is taken for a hello.

## Main definitions

* `Packet.Near`: What a packet says of distances.
* `DistanceSound`: What a node stores and has sent is no less than the distance.
* `CountsHops`: No count wraps, and nobody looks for the address 0.

## Theorems

* `handler_madeNear`: What the entries a handler makes say.
* `distanceSound_step`: A step keeps the counts up.
* `hops_bound_distance`: The distance is at most the stored count plus one.
* `rings_contained`: A ring is heard within its TTL only.
-/

namespace OpenManet

section Sound

variable (near : Fin 256 → Nat → Prop)

/-- What the packet says of the distance to its originator or destination is true of the
    node that sends it: `near k n` says that the node whose address has the slot `k` is
    within `n` links. -/
def Packet.Near : Packet → Prop
  | rreq m => m.srcIp ≠ 0 ∧ m.destIp ≠ 0 ∧ near (slotOf m.srcIp) m.hopCount.toNat ∧
      m.hopCount.toNat + m.ttl.toNat ≤ 35
  | rrep m _ => m.destIp ≠ 0 ∧ near (slotOf m.destIp) (m.hopCount.toNat + 1) ∧
      (m.srcIp = 0 → near (slotOf m.destIp) 0)
  | rerr _ _ | null _ | timing => True

/-- The request of a search thread is the node's own and has gone no hops. -/
def SearchThread.AsksNear (ip : U32) (t : SearchThread) : Prop :=
  match t.stage with
  | .starting => True
  | .ring rreq _ | .retry rreq _ => rreq.srcIp = ip ∧ rreq.destIp ≠ 0

/-- What the entry says of the distance, if its number is valid. -/
def RoutingEntry.Near (e : RoutingEntry) : Prop :=
  e.destIp ≠ 0 ∧ (e.seqValid = .seqValid → near (slotOf e.destIp) (e.hopCount.toNat + 1))

/-- What the node stores and has sent is no less than the distance. -/
structure DistanceSound (n : Node) : Prop where
  flood : FloodReady n
  entries : n.Entries (RoutingEntry.Near near)
  threads : ∀ t ∈ n.threads, t.AsksNear n.ipAddress
  packets : ∀ c ∈ n.log, ∀ packet, c.packet = some packet → packet.Near near

/-- The event brings a node with this address nothing that is wrong about distances. -/
structure HeardNear (event : Event) (ip : U32) : Prop where
  mono : ∀ k n m, near k n → n ≤ m → near k m
  self : ip ≠ 0 ∧ near (slotOf ip) 0
  sender : ∀ s message, event = .control s message → s ≠ 0
  rreq : ∀ s m, event = .control s (.rreq m) → m.srcIp ≠ 0 ∧ m.destIp ≠ 0 ∧
    near (slotOf m.srcIp) (m.hopCount.toNat + 1) ∧ m.hopCount.toNat + m.ttl.toNat ≤ 35
  rrep : ∀ s m, event = .control s (.rrep m) → m.destIp ≠ 0 ∧
    near (slotOf m.destIp) (m.hopCount.toNat + 2) ∧ m.hopCount.toNat < 255 ∧
      (m.srcIp = 0 → near (slotOf m.destIp) 1)
  outgoing : ∀ dest, event = .outgoing dest → dest ≠ 0

/-- What an operation makes an entry from, and what a hello is not. -/
def Op.MadeNear (event : Event) : Op → Prop
  | create _ destIp _ validSeq _ hopCount _ =>
    destIp ≠ 0 ∧ (validSeq = .seqValid → near (slotOf destIp) (hopCount.toNat + 1))
  | hello _ _ _ => ∀ s m, event = .control s (.rrep m) → m.srcIp = 0
  | sendUnicast _ (.rrep _ _) => ∀ s m, event = .control s (.rrep m) → m.srcIp ≠ 0
  | _ => True

end Sound

/-! ### The handlers -/

section Handlers

variable {near : Fin 256 → Nat → Prop} {event : Event} {ip : U32}

theorem madeNear_of_follows (o : Op) (hfollows : o.FollowsRoute)
    (hpassed : ∀ s m, event = .control s (.rrep m) → m.srcIp ≠ 0) : o.MadeNear near event := by
  cases o with
  | create | hello => exact absurd hfollows id
  | sendUnicast dest packet => cases packet <;> first | exact hpassed | trivial
  | _ => trivial

/-- Apart from requests, replies and outgoing packets the guards say enough. -/
theorem madeNear_of_guard (hinstalls : event.installs = false) (o : Op) (n : Node)
    (hguard : o.Guard event n) : o.MadeNear near event := by
  have hnone : ∀ s m, event ≠ .control s (.rrep m) := by
    rintro s m rfl
    cases hinstalls
  cases o with
  | create =>
      rw [hguard.1] at hinstalls
      cases hinstalls
  | hello => exact fun s m hevent => absurd hevent (hnone s m)
  | sendUnicast dest packet =>
      cases packet <;> first | exact fun s m hevent => absurd hevent (hnone s m) | trivial
  | _ => trivial

/-- One more hop in eight bits, read as 32. -/
theorem nextHops_toNat (hops : Byte) (h : hops.toNat < 255) :
    ((hops + 1).setWidth 32 : U32).toNat = hops.toNat + 1 := by
  have hone : (1 : Byte).toNat = 1 := rfl
  rw [hopField_toNat, BitVec.toNat_add, hone]
  omega

theorem recvRreq_madeNear (env : Env) (s : U32) (m : RreqHeader)
    (hevent : event = .control s (.rreq m)) (hheard : HeardNear near event ip) (n : Node) :
    (recvRreq env s m).Meets Op.apply (fun o _ => o.MadeNear near event) n := by
  rcases hheard.rreq s m hevent with ⟨hsrc, -, hnear, hbudget⟩
  refine ⟨⟨hheard.sender s _ hevent, fun hvalid => by cases hvalid⟩, trivial, ?_⟩
  simp only [Prog.Meets]
  split
  · trivial
  · split
    · trivial
    · refine ⟨⟨hsrc, fun _ => ?_⟩, trivial, ?_⟩
      · show near (slotOf m.srcIp) (((m.hopCount + 1).setWidth 32 : U32).toNat + 1)
        rw [nextHops_toNat m.hopCount (by omega)]
        exact hheard.mono _ _ _ hnear (by omega)
      · refine Prog.Meets.imp (fun o n hfollows => madeNear_of_follows o hfollows ?_) _ _
          (afterReverseRoute_follows env s _ _ _)
        intro s' m' hother
        cases hevent.symm.trans hother

theorem recvRrep_madeNear (env : Env) (s : U32) (m : RrepHeader)
    (hevent : event = .control s (.rrep m)) (hheard : HeardNear near event ip) (n : Node) :
    (recvRrep env s m).Meets Op.apply (fun o _ => o.MadeNear near event) n := by
  rcases hheard.rrep s m hevent with ⟨hdest, hnear, hfits, -⟩
  have hsame : ∀ s' m', event = .control s' (.rrep m') → m' = m := by
    intro s' m' hother
    have h := hevent.symm.trans hother
    simp only [Event.control.injEq, ControlMessage.rrep.injEq] at h
    exact h.2.symm
  -- The entry made says what the reply does, one hop more.
  have hcreate : (Op.create env m.destIp m.destSeq .seqValid s
      ((incrementHopRrep m).hopCount.setWidth 32) m.lifetime).MadeNear near event := by
    refine ⟨hdest, fun _ => ?_⟩
    show near (slotOf m.destIp) (((m.hopCount + 1).setWidth 32 : U32).toNat + 1)
    rw [nextHops_toNat m.hopCount hfits]
    exact hnear
  have hrest : ∀ n : Node, Prog.Meets Op.apply (fun o _ => o.MadeNear near event)
      (if m.srcIp = 0 then recvHello env s (incrementHopRrep m)
        else previousHopSection env s m.destIp
          (installForwardRoute env s (incrementHopRrep m))) n := by
    intro n
    by_cases hhello : m.srcIp = 0
    · rw [if_pos hhello]
      exact ⟨hcreate, fun s' m' hother => (hsame s' m' hother) ▸ hhello, trivial⟩
    · rw [if_neg hhello]
      refine ⟨⟨hheard.sender s _ hevent, fun hvalid => by cases hvalid⟩, trivial, hcreate,
        trivial, ?_⟩
      refine Prog.Meets.imp (fun o n hfollows => madeNear_of_follows o hfollows ?_) _ _
        (afterForwardRoute_follows _ _)
      exact fun s' m' hother => (hsame s' m' hother) ▸ hhello
  simp only [recvRrep, publishFound, Prog.Meets]
  split
  · exact ⟨trivial, hrest _⟩
  · exact hrest n

theorem outgoingMessage_madeNear (env : Env) (dest : U32) (hevent : event = .outgoing dest)
    (hheard : HeardNear near event ip) (n : Node) :
    (outgoingMessage env dest).Meets Op.apply (fun o _ => o.MadeNear near event) n := by
  have hjoin : ∀ new n n', (startOrJoin dest new n).Meets Op.apply
      (fun o _ => o.MadeNear near event) n' := by
    intro new n n'
    unfold startOrJoin
    split
    · trivial
    · simp only []
      split
      · trivial
      · split
        · exact ⟨trivial, trivial⟩
        · split
          · exact ⟨trivial, trivial, trivial⟩
          · exact ⟨trivial, trivial, trivial, trivial⟩
  have hsearch : ∀ n, (sendRreq env dest).Meets Op.apply (fun o _ => o.MadeNear near event) n :=
    fun n => ⟨⟨hheard.outgoing dest hevent, fun hvalid => by cases hvalid⟩, hjoin _ _ _⟩
  simp only [outgoingMessage, Prog.Meets]
  split
  · trivial
  · split
    · exact hsearch n
    · split
      · exact ⟨trivial, trivial⟩
      · split
        · trivial
        · split
          · exact ⟨trivial, hsearch _⟩
          · exact hsearch n

theorem handler_madeNear (n : Node) (input : Input) (hheard : HeardNear near input.event ip) :
    OpsMeet (fun o _ => o.MadeNear near input.event) n input := by
  have hquiet : input.event.installs = false →
      OpsMeet (fun o _ => o.MadeNear near input.event) n input := fun hinstalls =>
    Prog.Meets.imp (fun o n hguard => madeNear_of_guard hinstalls o n hguard) _ n
      (handler_guard n input)
  rcases input with ⟨env, event⟩
  cases event with
  | control s message =>
      cases message with
      | rreq m =>
          exact incomingControlMessage_meets n env s _ (.rreq m) fun _ =>
            recvRreq_madeNear env s m rfl hheard n
      | rrep m =>
          exact incomingControlMessage_meets n env s _ (.rrep m) fun _ =>
            recvRrep_madeNear env s m rfl hheard n
      | rerr => exact hquiet rfl
  | outgoing dest => exact outgoingMessage_madeNear env dest rfl hheard n
  | data | forwarded | search | wait | expire | rreqIdExpire | hello => exact hquiet rfl

end Handlers

/-! ### What an operation leaves -/

section Apply

variable {near : Fin 256 → Nat → Prop} {event : Event} {n : Node}

theorem reverseRoute_near (env : Env) (s : U32) (m : RreqHeader) (new : Bool) (e : RoutingEntry)
    (hslot : slotOf e.destIp = slotOf m.srcIp) (h : e.Near near)
    (hnear : near (slotOf m.srcIp) ((m.hopCount.setWidth 32 : U32).toNat + 1)) :
    (e.reverseRoute env s m new).Near near := by
  by_cases hm : new = true ∨ fresherReverse m e = true
  · rcases reverseRoute_accepted env s new e m hm with ⟨t, ht⟩
    rw [ht]
    exact ⟨h.1, fun _ => hslot ▸ hnear⟩
  · rcases reverseRoute_refused env s new e m hm with ⟨t, ht⟩
    rw [ht]
    exact h

theorem forwardRoute_near (env : Env) (s : U32) (m : RrepHeader) (new : Bool) (e : RoutingEntry)
    (hslot : slotOf e.destIp = slotOf m.destIp) (h : e.Near near)
    (hnear : near (slotOf m.destIp) ((m.hopCount.setWidth 32 : U32).toNat + 1)) :
    (e.forwardRoute env s m new).Near near := by
  by_cases hm : new = true ∨ fresherForward m e = true
  · rcases forwardRoute_accepted env s new e m hm with ⟨t, ht⟩
    rw [ht]
    exact ⟨h.1, fun _ => hslot ▸ hnear⟩
  · rcases forwardRoute_refused env s new e m hm with ⟨t, ht⟩
    rw [ht]
    exact h

/-- A hello validates the number of a neighbour and lets any count stand. -/
theorem hello_near (env : Env) (m : RrepHeader) (new : Bool) (e : RoutingEntry)
    (h : e.Near near) (hnear : near (slotOf e.destIp) (e.hopCount.toNat + 1)) :
    (e.hello env m new).Near near := by
  by_cases hm : takesHello m new e
  · rcases hello_accepted env new e m hm with ⟨t, ht⟩
    rw [ht]
    exact ⟨h.1, fun _ => hnear⟩
  · rw [hello_refused env new e m hm]
    exact h

theorem near_apply (o : Op) (hn : n.Entries (RoutingEntry.Near near)) (hguard : o.Guard event n)
    (hmade : o.MadeNear near event) (hheard : HeardNear near event n.ipAddress) :
    (o.apply n).Entries (RoutingEntry.Near near) := by
  intro i e' he'
  rcases entry_origin n o i e' he' with hfresh | hold | ⟨ip, f, e, heff, hslot, he, rfl⟩
  · cases o with
    | create =>
        cases hfresh
        exact hmade
    | _ => cases hfresh
  · exact hn i e' hold
  · have hnear := hn i e he
    have hkeyed : slotOf e.destIp = slotOf ip := (n.routes.keyed i e he).trans hslot
    cases o with
    | previousHop env s listed new =>
        cases heff
        rcases previousHop_eq env new e listed with ⟨t, ht⟩
        rw [ht]
        exact hnear
    | reverseRoute env s m new =>
        cases heff
        rcases hguard.1 with ⟨m₀, hevent, rfl⟩
        rcases hheard.rreq s m₀ hevent with ⟨-, -, hfar, hbudget⟩
        refine reverseRoute_near env s _ new e hkeyed hnear ?_
        show near (slotOf m₀.srcIp) (((m₀.hopCount + 1).setWidth 32 : U32).toNat + 1)
        rw [nextHops_toNat m₀.hopCount (by omega)]
        exact hheard.mono _ _ _ hfar (by omega)
    | hello env m new =>
        cases heff
        rcases hguard with ⟨s, ⟨m₀, hevent, rfl⟩, -⟩
        -- The count that stands is any, but a hello comes from the node itself.
        have hone := (hheard.rrep s m₀ hevent).2.2.2 (hmade s m₀ hevent)
        refine hello_near env _ new e hnear ?_
        rw [hkeyed]
        exact hheard.mono _ _ _ hone (by omega)
    | forwardRoute env s m new =>
        cases heff
        rcases hguard.1 with ⟨m₀, hevent, rfl⟩
        rcases hheard.rrep s m₀ hevent with ⟨-, hfar, hfits, -⟩
        refine forwardRoute_near env s _ new e hkeyed hnear ?_
        show near (slotOf m₀.destIp) (((m₀.hopCount + 1).setWidth 32 : U32).toNat + 1)
        rw [nextHops_toNat m₀.hopCount hfits]
        exact hfar
    | activate =>
        cases heff
        rw [activate_eq]
        exact hnear
    | write ip w =>
        cases heff
        cases w <;> exact hnear
    | searchFound | breakRoute | linkBreak | outgoingBreak | expireRoute | startSearch
    | searchFailed =>
        cases heff
        exact hnear
    | create | removeEntry | beginWait | moveWaiter | moveHello | incrementSequenceNum
    | writeSequenceNum | sendRreq | sendUnicast | sendBroadcast => cases heff

/-- What a thread is about to ask, it asks as the node, about an address. -/
theorem asks_near (hn : DistanceSound near n) (t : SearchThread) (ht : t ∈ n.threads)
    (rreq : RreqHeader) (ttl : BitVec 11) (stage : SearchStage) (h : t.Asks n rreq ttl stage) :
    (rreq.srcIp = n.ipAddress ∧ rreq.destIp ≠ 0) ∧
      { t with stage := stage }.AsksNear n.ipAddress := by
  have hasks := hn.threads t ht
  unfold SearchThread.AsksNear at hasks
  cases h with
  | ring ttl hle hstage =>
      have hown : rreq.srcIp = n.ipAddress ∧ rreq.destIp ≠ 0 := by
        rcases hstage with hstage | ⟨-, e, he, rfl, -⟩
        · rw [hstage] at hasks
          exact hasks
        · exact ⟨rfl, (hn.entries _ e he).1⟩
      exact ⟨hown, hown⟩
  | retry i hstage =>
      have hown : rreq.srcIp = n.ipAddress ∧ rreq.destIp ≠ 0 := by
        rcases hstage with hstage | ⟨ttl, hstage⟩ | ⟨-, e, he, rfl⟩
        · rw [hstage] at hasks
          exact hasks
        · rw [hstage] at hasks
          exact hasks
        · exact ⟨rfl, (hn.entries _ e he).1⟩
      exact ⟨hown, hown⟩

theorem forwardedRreq_addresses (m : RreqHeader) (destination : Option RoutingEntry) :
    (forwardedRreq m destination).srcIp = m.srcIp ∧
      (forwardedRreq m destination).destIp = m.destIp := by
  unfold forwardedRreq
  cases destination with
  | none => exact ⟨rfl, rfl⟩
  | some e =>
      simp only []
      split
      · exact ⟨rfl, rfl⟩
      · exact ⟨rfl, rfl⟩

/-- What an operation sends says no less than the distance. -/
theorem calls_near (o : Op) (hn : DistanceSound near n) (hguard : o.Guard event n)
    (hmade : o.MadeNear near event) (hheard : HeardNear near event n.ipAddress) :
    ∀ c ∈ o.calls n, ∀ packet, c.packet = some packet → packet.Near near := by
  intro c hc packet hpacket
  have hrequests := calls_requests event o n hguard hn.flood c hc
  have hself := hheard.self
  cases o with
  | sendRreq id rreq ttl stage =>
      rcases List.mem_singleton.mp hc with rfl
      cases hpacket
      rcases hguard with ⟨hevent, t, ht, -, hasks⟩
      rcases (asks_near hn t ht rreq ttl stage hasks).1 with ⟨hown, hdest⟩
      cases hrequests with
      | search id' hevent' hhop hpos hle =>
          have hzero : rreq.hopCount.toNat = 0 := congrArg BitVec.toNat hhop
          refine ⟨?_, hdest, ?_, ?_⟩
          · show rreq.srcIp ≠ 0
            rw [hown]
            exact hself.1
          · show near (slotOf rreq.srcIp) rreq.hopCount.toNat
            rw [hown, hzero]
            exact hself.2
          · show rreq.hopCount.toNat + ttl.toNat ≤ 35
            rw [hzero, Nat.zero_add]
            exact hle
      | passedOn s m₀ hevent' => cases hevent.symm.trans hevent'
  | sendUnicast dest packet =>
      rcases List.mem_singleton.mp hc with rfl
      cases hpacket
      cases hguard with
      | ownReply env m hevent hown => exact ⟨hself.1, hheard.mono _ _ _ hself.2 (by omega),
          fun _ => hself.2⟩
      | tableReply env m e hevent hother hfound hanswers =>
          rcases hheard.rreq dest m hevent with ⟨hsrc, hdest, -, -⟩
          have hvalid : e.seqValid = .seqValid := by
            simp only [answersFromTable, Bool.and_eq_true, decide_eq_true_eq] at hanswers
            exact hanswers.1.2
          -- The stored count fits the field it is sent in.
          have hsmall : e.hopCount.toNat < 256 := hn.flood.hops _ e hfound
          have hfield : (e.hopCount.setWidth 8).toNat = e.hopCount.toNat := by
            rw [BitVec.toNat_setWidth]
            exact Nat.mod_eq_of_lt hsmall
          have hkeyed : slotOf e.destIp = slotOf m.destIp := n.routes.keyed _ e hfound
          refine ⟨hdest, ?_, fun hzero => absurd hzero hsrc⟩
          show near (slotOf m.destIp) ((e.hopCount.setWidth 8).toNat + 1)
          rw [hfield, ← hkeyed]
          exact (hn.entries _ e hfound).2 hvalid
      | gratuitousReply env s m hevent =>
          rcases hheard.rreq s m hevent with ⟨hsrc, hdest, hnear, hbudget⟩
          refine ⟨hsrc, ?_, fun hzero => absurd hzero hdest⟩
          show near (slotOf m.srcIp) ((m.hopCount + 1).toNat + 1)
          rw [← hopField_toNat, nextHops_toNat m.hopCount (by omega)]
          exact hheard.mono _ _ _ hnear (by omega)
      | passedOn s m hevent =>
          rcases hheard.rrep s m hevent with ⟨hdest, hnear, hfits, -⟩
          refine ⟨hdest, ?_, fun hzero => absurd hzero (hmade s m hevent)⟩
          show near (slotOf m.destIp) ((m.hopCount + 1).toNat + 1)
          rw [← hopField_toNat, nextHops_toNat m.hopCount hfits]
          exact hnear
      | error | noError | timing => trivial
  | sendBroadcast packet =>
      rcases List.mem_singleton.mp hc with rfl
      cases hpacket
      cases hguard with
      | request s m hevent httl =>
          rcases hheard.rreq s m hevent with ⟨hsrc, hdest, hnear, hbudget⟩
          rcases forwardedRreq_addresses (incrementHopRreq m) (n.getRoutingEntry m.destIp)
            with ⟨hsrc', hdest'⟩
          rcases forwardedRreq_counts (incrementHopRreq m) (n.getRoutingEntry m.destIp)
            with ⟨hhop, hless⟩
          have hcount : (incrementHopRreq m).hopCount.toNat = m.hopCount.toNat + 1 := by
            show (m.hopCount + 1).toNat = _
            rw [← hopField_toNat, nextHops_toNat m.hopCount (by omega)]
          have hmore : 1 < m.ttl.toNat := Nat.lt_of_not_le httl
          have hone : (1 : BitVec 11).toNat = 1 := by decide
          have httl' : (m.ttl - 1).toNat = m.ttl.toNat - 1 := by
            rw [BitVec.toNat_sub_of_le (show (1 : BitVec 11) ≤ m.ttl from hmore.le), hone]
          simp only [Packet.Near, hsrc', hdest', hhop, hless, hcount]
          refine ⟨hsrc, hdest, hnear, ?_⟩
          show m.hopCount.toNat + 1 + (m.ttl - 1).toNat ≤ 35
          omega
      | hello => exact ⟨hself.1, hheard.mono _ _ _ hself.2 (by omega), fun _ => hself.2⟩
      | error | noError => trivial
  | _ =>
      rw [packet_of_isRouteCall c (calls_isRouteCall n _ id c hc)] at hpacket
      cases hpacket

theorem distanceSound_apply (o : Op) (hn : DistanceSound near n) (hguard : o.Guard event n)
    (hmade : o.MadeNear near event) (hheard : HeardNear near event n.ipAddress) :
    DistanceSound near (o.apply n) where
  flood := floodReady_apply event o n hn.flood hguard
  entries := near_apply o hn.entries hguard hmade hheard
  threads := by
    intro t ht
    rw [apply_ipAddress]
    rcases apply_threads n o t ht with hold | ⟨dest, -, rfl⟩ | ⟨t₀, -, rreq, ttl, rfl, -, -⟩
    · exact hn.threads t hold
    · trivial
    · rcases hguard with ⟨-, t₁, ht₁, -, hasks⟩
      exact (asks_near hn t₁ ht₁ rreq ttl t.stage hasks).2
  packets := by
    intro c hc packet hpacket
    rw [apply_log] at hc
    rcases List.mem_append.mp hc with hnew | hold
    · exact calls_near o hn hguard hmade hheard c hnew packet hpacket
    · exact hn.packets c hold packet hpacket

theorem distanceSound_step (input : Input) (hn : DistanceSound near n)
    (hheard : HeardNear near input.event n.ipAddress) : DistanceSound near (step n input) := by
  have hmeets := (handler_guard n input).and _ _ (handler_madeNear n input hheard)
  refine (Prog.exec_invariant Op.apply _
    (fun n' => DistanceSound near n' ∧ n'.ipAddress = n.ipAddress) ?_ input.handler n
    ⟨hn, rfl⟩ hmeets).1
  rintro o n' ⟨hn', hip⟩ ⟨hguard, hmade⟩
  rw [← hip] at hheard
  refine ⟨distanceSound_apply o hn' hguard hmade hheard, ?_⟩
  rw [apply_ipAddress, hip]

end Apply

/-! ### The network -/

section Network

variable {ι : Type}

/-- No hop count wraps in its eight bits, and nobody looks for the address 0. -/
def CountsHops (_ : Network ι) (a : NetInput ι) : Prop :=
  match a.input.event with
  | .control _ (.rrep m) => m.hopCount ≠ 0xFF
  | .outgoing dest => dest ≠ 0
  | _ => True

/-- Some node whose address has the slot is within so many links of the node. -/
def Network.Near (links : ι → ι → Prop) (net : Network ι) (i : ι) (k : Fin 256) (n : Nat) : Prop :=
  ∃ j, slotOf (net j).ipAddress = k ∧ WithinHops links j n i

/-- Every node of the network stores and has sent counts no less than the distances. -/
def Network.DistanceSound (links : ι → ι → Prop) (net : Network ι) : Prop :=
  ∀ i, (net i).ipAddress ≠ 0 ∧ OpenManet.DistanceSound (net.Near links i) (net i)

variable (links : ι → ι → Prop)

theorem Network.distanceSound_start (net : Network ι)
    (hboot : ∀ i, ∃ ip bcast hello, net i = Node.boot ip bcast hello)
    (haddress : ∀ i, (net i).ipAddress ≠ 0) : net.DistanceSound links := by
  refine fun i => ⟨haddress i, ?_⟩
  rcases hboot i with ⟨ip, bcast, hello, hnode⟩
  have hnone := Node.boot_slots_ne ip bcast hello
  rw [hnode]
  exact ⟨⟨fun k e he => absurd he (hnone k e), fun t ht => absurd ht List.not_mem_nil⟩,
    fun k e he => absurd he (hnone k e), fun t ht => absurd ht List.not_mem_nil,
    fun c hc => absurd hc List.not_mem_nil⟩

/-- What comes over a link is one hop farther from where it began. -/
theorem heardNear_of_overLinks (net : Network ι) (a : NetInput ι) (h : net.DistanceSound links)
    (hover : OverLinks links net a) (hcounts : CountsHops net a) :
    HeardNear (net.Near links a.node) a.input.event (net a.node).ipAddress := by
  have hfrom : ∀ s message, a.input.event = .control s message → ∃ (i : ι) (packet : Packet),
      links i a.node ∧ (net i).ipAddress = s ∧ packet.Carries message ∧
        packet.Near (net.Near links i) := by
    intro s message hevent
    unfold OverLinks at hover
    rw [hevent] at hover
    rcases hover with ⟨i, packet, hlink, hs, hcarries, hsent⟩
    refine ⟨i, packet, hlink, hs, hcarries, ?_⟩
    rcases hsent with hsent | hsent
    · exact (h i).2.packets _ hsent packet rfl
    · exact (h i).2.packets _ hsent packet rfl
  have hfarther : ∀ i k n, links i a.node → net.Near links i k n →
      net.Near links a.node k (n + 1) := by
    rintro i k n hlink ⟨j, hj, hwithin⟩
    exact ⟨j, hj, .link n i a.node hwithin hlink⟩
  refine
    { mono := fun k n m hnear hle => hnear.imp fun j hj => ⟨hj.1, hj.2.mono n m hle⟩
      self := ⟨(h a.node).1, a.node, rfl, .here 0⟩
      sender := ?_
      rreq := ?_
      rrep := ?_
      outgoing := ?_ }
  · intro s message hevent
    rcases hfrom s message hevent with ⟨i, -, -, rfl, -⟩
    exact (h i).1
  · intro s m hevent
    rcases hfrom s _ hevent with ⟨i, packet, hlink, -, hcarries, hnear⟩
    cases packet with
    | rreq m' =>
        rw [show m' = m from hcarries] at hnear
        rcases hnear with ⟨hsrc, hdest, hnear, hbudget⟩
        exact ⟨hsrc, hdest, hfarther i _ _ hlink hnear, hbudget⟩
    | rrep | rerr | null | timing => exact absurd hcarries id
  · intro s m hevent
    rcases hfrom s _ hevent with ⟨i, packet, hlink, -, hcarries, hnear⟩
    cases packet with
    | rrep m' beyond =>
        rw [show m' = m from hcarries] at hnear
        rcases hnear with ⟨hdest, hnear, hhello⟩
        unfold CountsHops at hcounts
        rw [hevent] at hcounts
        have hne : m.hopCount.toNat ≠ 255 := fun h => hcounts (BitVec.eq_of_toNat_eq h)
        have hlt := m.hopCount.isLt
        exact ⟨hdest, hfarther i _ _ hlink hnear, by omega,
          fun hzero => hfarther i _ _ hlink (hhello hzero)⟩
    | rreq | rerr | null | timing => exact absurd hcarries id
  · intro dest hevent
    unfold CountsHops at hcounts
    rw [hevent] at hcounts
    exact hcounts

variable [DecidableEq ι]

theorem Network.near_netStep (net : Network ι) (a : NetInput ι) (i : ι) :
    (netStep net a).Near links i = net.Near links i := by
  have haddress : ∀ j, (netStep net a j).ipAddress = (net j).ipAddress := fun j =>
    run_ipAddress net [a]
  funext k n
  simp only [Network.Near, haddress]

theorem Network.distanceSound_netStep (net : Network ι) (a : NetInput ι)
    (h : net.DistanceSound links) (hover : OverLinks links net a) (hcounts : CountsHops net a) :
    (netStep net a).DistanceSound links := by
  intro i
  rw [Network.near_netStep]
  by_cases hnode : i = a.node
  · rw [hnode, netStep_self, step_ipAddress]
    exact ⟨(h a.node).1, distanceSound_step a.input (h a.node).2
      (heardNear_of_overLinks links net a h hover hcounts)⟩
  · rw [netStep_ne net a i hnode]
    exact h i

theorem run_distanceSound (net : Network ι)
    (hboot : ∀ i, ∃ ip bcast hello, net i = Node.boot ip bcast hello)
    (haddress : ∀ i, (net i).ipAddress ≠ 0) (inputs : List (NetInput ι))
    (hlegal : AllSteps netStep (OverLinks links) net inputs)
    (hcounts : AllSteps netStep CountsHops net inputs) :
    (run netStep net inputs).DistanceSound links := by
  have hboth := (allSteps_and netStep (OverLinks links) CountsHops net inputs).mpr
    ⟨hlegal, hcounts⟩
  exact run_invariant netStep _ (Network.DistanceSound links)
    (fun net a h ha => net.distanceSound_netStep links a h ha.1 ha.2) net inputs
    (net.distanceSound_start links hboot haddress) hboth

omit [DecidableEq ι] in
theorem requestsCarried_of_overLinks (net : Network ι) (a : NetInput ι)
    (h : OverLinks links net a) : RequestsCarried net a := by
  rcases a with ⟨node, env, event⟩
  cases event with
  | control s message =>
      rcases h with ⟨i, packet, -, -, hcarries, hsent⟩
      cases message with
      | rreq m =>
          cases packet with
          | rreq m' =>
              rw [show m' = m from hcarries] at hsent
              exact ⟨i, hsent.imp id fun h => ⟨_, h⟩⟩
          | rrep | rerr | null | timing => exact absurd hcarries id
      | rrep | rerr => trivial
  | data | outgoing | forwarded | search | wait | expire | rreqIdExpire | hello => trivial

/-- In every run over links from start-up, the distance to another node is at most one
    more than the hop count stored for it, as long as the stored number is valid. -/
theorem hops_bound_distance (net : Network ι) (hstart : NetworkStart net)
    (haddress : ∀ i, (net i).ipAddress ≠ 0) (inputs : List (NetInput ι))
    (hlegal : AllSteps netStep (OverLinks links) net inputs)
    (hcounts : AllSteps netStep CountsHops net inputs) (i j : ι) (e : RoutingEntry)
    (he : (run netStep net inputs i).getRoutingEntry (net j).ipAddress = some e)
    (hseq : e.seqValid = .seqValid) : WithinHops links j (e.hopCount.toNat + 1) i := by
  have hsound := run_distanceSound links net hstart.boot haddress inputs hlegal hcounts i
  rcases (hsound.2.entries _ e he).2 hseq with ⟨k, hslot, hwithin⟩
  -- Addresses differ in their slots, so the node found is the one meant.
  rw [run_ipAddress, (run netStep net inputs i).routes.keyed _ e he] at hslot
  rw [hstart.distinct hslot] at hwithin
  exact hwithin

/-- In every run over links from start-up, a node that can hear a request in the air is
    within as many links of the node that asks as the TTL the request was first sent
    with. -/
theorem rings_contained (net : Network ι) (hstart : NetworkStart net)
    (haddress : ∀ i, (net i).ipAddress ≠ 0) (inputs : List (NetInput ι))
    (hlegal : AllSteps netStep (OverLinks links) net inputs)
    (hcounts : AllSteps netStep CountsHops net inputs) (m : RreqHeader) (T k : Nat)
    (hflooded : Flooded net inputs m T k) (i j : ι) (hj : (net j).ipAddress = m.srcIp) (s : U32)
    (env : Env) (hhears : OverLinks links (run netStep net inputs)
      ⟨i, { env := env, event := .control s (.rreq m) }⟩) : WithinHops links j T i := by
  have hsound := run_distanceSound links net hstart.boot haddress inputs hlegal hcounts
  have hheard := heardNear_of_overLinks links _ _ hsound hhears trivial
  rcases hheard.rreq s m rfl with ⟨-, -, ⟨j', hslot, hwithin⟩, -⟩
  rw [run_ipAddress, ← hj] at hslot
  rw [hstart.distinct hslot] at hwithin
  -- The TTL is what is left of the budget, one at least.
  have hbudget :=
    flooded_withinBudget net (floodStart_of_boot net hstart.boot) inputs m T k hflooded
  have hsum := hbudget.sum
  have hpos := hbudget.ttl
  exact hwithin.mono _ _ (by omega)

end Network

/-- The second node, which the reply has passed, sleeps and says hello to the third. -/
def rowGreeted : List (NetInput (Fin 3)) :=
  rowAnswered ++ [⟨Row.middle, { env := .clear, event := .hello }⟩,
    ⟨Row.middle, { env := .clear, event := .hello }⟩,
    ⟨Row.last, receive 0x02000000 (.rrep (generateRrepMessage (fun _ => 0) 0 0x02000000 0 0
      (toU32 (allowedHelloLoss * helloIntervalMs))))⟩]

theorem overLinks_rowGreeted :
    AllSteps netStep (OverLinks rowLinks) (Network.boot 3) rowGreeted :=
  (allSteps_append _ _ _ _ _).mpr ⟨overLinks_rowAnswered,
    trivial, trivial, ⟨1, .rrep _ [], Or.inl rfl, rfl, rfl, Or.inl (by decide +kernel)⟩, trivial⟩

theorem countsHops_rowGreeted : AllSteps netStep CountsHops (Network.boot 3) rowGreeted := by
  have hsearch : (0x03000000 : U32) ≠ 0 := by decide
  have hfits : ∀ n : Byte, n ∈ [0, 1, 0] → n ≠ 0xFF := by decide
  exact ⟨hsearch, trivial, trivial, trivial, trivial, hfits 0 (by decide), hfits 1 (by decide),
    trivial, trivial, hfits 0 (by decide), trivial⟩

/-- The third node then stores no hops for the second, which is one link away. -/
theorem hops_bound_distance_greeted :
    ∃ e, (run netStep (Network.boot 3) rowGreeted 2).getRoutingEntry 0x02000000 = some e ∧
      e.hopCount = 0 ∧ WithinHops rowLinks 1 (e.hopCount.toNat + 1) 2 := by
  have hentry : ∃ e, (run netStep (Network.boot 3) rowGreeted 2).getRoutingEntry 0x02000000 =
      some e ∧ e.hopCount = 0 ∧ e.seqValid = .seqValid := by
    decide +kernel
  rcases hentry with ⟨e, he, hhops, hseq⟩
  exact ⟨e, he, hhops, hops_bound_distance rowLinks (Network.boot 3) boot_networkStart (by decide)
    rowGreeted overLinks_rowGreeted countsHops_rowGreeted 2 1 e he hseq⟩

/-- The third node hears the request the second has passed on. -/
theorem rings_contained_row : ∃ T k,
    Flooded (Network.boot 3) rowGreeted
      { firstRequest with rreqId := 2, ttl := 2, hopCount := 1 } T k ∧
      WithinHops rowLinks 0 T 2 := by
  have hsent : .sendBroadcast (.rreq { firstRequest with rreqId := 2, ttl := 2, hopCount := 1 }) ∈
      (run netStep (Network.boot 3) rowGreeted 1).log := by
    decide +kernel
  rcases flooded_of_inFlight (Network.boot 3)
    (floodStart_of_boot _ fun _ => ⟨_, _, _, rfl⟩) rowGreeted
    (AllSteps.imp netStep (fun net a h => requestsCarried_of_overLinks rowLinks net a h) _ _
      overLinks_rowGreeted) _ ⟨1, Or.inl hsent⟩ with ⟨T, k, hflooded⟩
  exact ⟨T, k, hflooded, rings_contained rowLinks (Network.boot 3) boot_networkStart (by decide)
    rowGreeted overLinks_rowGreeted countsHops_rowGreeted _ T k hflooded 2 0 rfl 0x02000000 .clear
    ⟨1, .rreq _, Or.inl rfl, rfl, rfl, Or.inl hsent⟩⟩

end OpenManet
