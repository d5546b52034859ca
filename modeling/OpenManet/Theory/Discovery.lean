import OpenManet.Theory.LoopFreedom
import OpenManet.Theory.Relaying
import Mathlib.Data.Fintype.Card

/-!
# Route Discovery along a Row of Nodes

What the protocol is for. The first node of a row has broadcast a request for the last
one. Each node of the row hears it from the one before it; the last one answers, and each
hears the reply from the one behind it. After these deliveries, in whatever order they
come in and whatever the nodes off the row do in between, every node of the row has a
valid route to either end over its neighbour in the row, with the right number of hops,
and its kernel forwards by it.

The tables may hold anything about everybody else. About the two ends they may hold what
does not get in the way: an entry that is worse or is the route to be, and none to answer
from. So the rings of a search that came before do no harm.

## Main definitions

* `inputsOf`: What happens to one node in a run of the network.
* `Discovery`: A row of nodes, its request, and the surroundings of each delivery.
* `Discovery.requestAt`, `Discovery.replyAt`: The messages on their way.
* `Discovery.Ready`: The tables let them through.
* `Discovery.Delivers`: The inputs that deliver them.
* `Discovery.Established`: The routes are there.

## Theorems

* `run_netStep_apply`: A node sees its own inputs only.
* `Discovery.Ready.establishes`: The deliveries establish the routes.
* `Discovery.Ready.schedule_carried`: They come to pass by what each node sends.
* `Discovery.succeeds`: Both together.
-/

namespace OpenManet

section Network

variable {ι : Type} [DecidableEq ι]

/-- What happens to one node, in the order it happens. -/
def inputsOf (i : ι) (inputs : List (NetInput ι)) : List Input :=
  inputs.filterMap fun a => if a.node = i then some a.input else none

theorem inputsOf_append (i : ι) (l₁ l₂ : List (NetInput ι)) :
    inputsOf i (l₁ ++ l₂) = inputsOf i l₁ ++ inputsOf i l₂ := List.filterMap_append

theorem inputsOf_singleton (i j : ι) (input : Input) :
    inputsOf i [⟨j, input⟩] = if j = i then [input] else [] := by
  by_cases hnode : j = i
  · rw [if_pos hnode]
    exact List.filterMap_cons_some (if_pos hnode)
  · rw [if_neg hnode]
    exact List.filterMap_cons_none (if_neg hnode)

/-- Addresses stay. -/
theorem run_ipAddress (net : Network ι) (inputs : List (NetInput ι)) {i : ι} :
    (run netStep net inputs i).ipAddress = (net i).ipAddress := by
  refine network_invariant (fun _ _ => True) (fun n => n.ipAddress = (net i).ipAddress) i
    (fun net' a ha hn _ => ?_) net inputs rfl (allSteps_of_forall netStep (fun _ _ => trivial) _ _)
  rw [step_ipAddress]
  exact hn

/-- A run over a numbered list of inputs meets a condition if each input does when it
    comes. -/
theorem allSteps_range {σ α : Type} (step : σ → α → σ) (ok : σ → α → Prop) (s : σ) (f : Nat → α)
    (k : Nat) (h : ∀ i < k, ok (run step s ((List.range i).map f)) (f i)) :
    AllSteps step ok s ((List.range k).map f) := by
  induction k with
  | zero => trivial
  | succ k ih =>
      rw [List.range_succ, List.map_append, List.map_singleton, allSteps_append]
      exact ⟨ih fun i hi => h i (Nat.lt_succ_of_lt hi), h k (Nat.lt_succ_self k), trivial⟩

/-- A node of a network sees its own inputs and no others. -/
theorem run_netStep_apply (net : Network ι) (inputs : List (NetInput ι)) (i : ι) :
    run netStep net inputs i = run step (net i) (inputsOf i inputs) := by
  induction inputs generalizing net with
  | nil => rfl
  | cons a rest ih =>
      rw [run_cons, ih]
      simp only [inputsOf, List.filterMap_cons]
      by_cases hnode : a.node = i
      · rw [if_pos hnode, ← hnode, netStep_self]
        rfl
      · rw [if_neg hnode, netStep_ne net a i (Ne.symm hnode)]

end Network

/-- A row of nodes, the first of which has broadcast a request for the last, and the
    surroundings in which each hears the request and the reply. -/
structure Discovery (ι : Type) where
  /-- How many nodes there are between the first and the last. -/
  relays : Nat
  node : Nat → ι
  address : Nat → U32
  net : Network ι
  request : RreqHeader
  /-- The surroundings in which the node after the `i`-th hears the request. -/
  heardIn : Nat → Env
  /-- The surroundings in which the `i`-th node hears the reply. -/
  repliedIn : Nat → Env

namespace Discovery

variable {ι : Type} (x : Discovery ι)

/-- The request as the node after the `i`-th hears it. -/
def requestAt : Nat → RreqHeader
  | 0 => x.request
  | i + 1 => passedOnRreq (requestAt i) (x.net (x.node (i + 1)))

/-- The reply of the last node. -/
def answer : RrepHeader :=
  ownAnswer (x.heardIn x.relays) (x.requestAt x.relays) (x.net (x.node (x.relays + 1)))

/-- The reply when so many nodes have passed it on. -/
def replyAt : Nat → RrepHeader
  | 0 => x.answer
  | k + 1 => incrementHopRrep (replyAt k)

/-- The node after the `i`-th hears the request from it. -/
def requestInput (i : Nat) : Input :=
  { env := x.heardIn i, event := .control (x.address i) (.rreq (x.requestAt i)) }

/-- The `i`-th node hears the reply from the one after it. -/
def replyInput (i : Nat) : Input :=
  { env := x.repliedIn i
    event := .control (x.address (i + 1)) (.rrep (x.replyAt (x.relays - i))) }

/-- The addresses are those of the nodes and differ in their top octets, the request is
    one for the last node that gets that far, and the tables let it and the reply
    through. -/
structure Ready : Prop where
  addresses : ∀ i ≤ x.relays + 1, (x.net (x.node i)).ipAddress = x.address i
  apart : ∀ i j, i ≤ x.relays + 1 → j ≤ x.relays + 1 →
    slotOf (x.address i) = slotOf (x.address j) → i = j
  /-- Zero for an originator marks a hello. -/
  named : x.address 0 ≠ 0
  srcIp : x.request.srcIp = x.address 0
  destIp : x.request.destIp = x.address (x.relays + 1)
  hopCount : x.request.hopCount = 0
  ttl : x.relays < x.request.ttl.toNat
  sent : .sendBroadcast (.rreq x.request) ∈ (x.net (x.node 0)).log
  reverse : ∀ i ≤ x.relays,
    OpenToRequest (x.heardIn i) (x.address i) (x.requestAt i) (x.net (x.node (i + 1)))
  quiet : ∀ i < x.relays, ((x.net (x.node (i + 1))).getRoutingEntry x.request.destIp).any
    (answersFromTable (x.requestAt i)) = false
  forward : ∀ i ≤ x.relays, OpenToReply x.answer (x.net (x.node i))

/-- In the run the first node hears the reply, the last one the request, and those
    between them first the one and then the other. Everybody else may do anything. -/
structure Delivers [DecidableEq ι] (inputs : List (NetInput ι)) : Prop where
  first : inputsOf (x.node 0) inputs = [x.replyInput 0]
  between : ∀ i < x.relays,
    inputsOf (x.node (i + 1)) inputs = [x.requestInput i, x.replyInput (i + 1)]
  last : inputsOf (x.node (x.relays + 1)) inputs = [x.requestInput x.relays]

/-! ### The messages on their way -/

section Messages

variable {x} (h : x.Ready)

include h

/-- There are as many top octets as there are nodes at least. -/
theorem Ready.relays_lt : x.relays + 2 ≤ 256 := by
  have hinj : Function.Injective fun i : Fin (x.relays + 2) => slotOf (x.address i.val) := by
    intro i j hij
    exact Fin.ext (h.apart i.val j.val (by omega) (by omega) hij)
  have hcard := Fintype.card_le_of_injective _ hinj
  rwa [Fintype.card_fin, Fintype.card_fin] at hcard

omit h in
/-- A relay changes the hop count, the TTL and the destination's number. -/
theorem requestAt_same (i : Nat) :
    (x.requestAt i).srcIp = x.request.srcIp ∧ (x.requestAt i).destIp = x.request.destIp ∧
      (x.requestAt i).srcSeq = x.request.srcSeq ∧ (x.requestAt i).rreqId = x.request.rreqId ∧
      (x.requestAt i).hopCount = x.request.hopCount + BitVec.ofNat 8 i ∧
      (x.requestAt i).ttl = x.request.ttl - BitVec.ofNat 11 i := by
  induction i with
  | zero => exact ⟨rfl, rfl, rfl, rfl, (BitVec.add_zero _).symm, (BitVec.sub_zero _).symm⟩
  | succ i ih =>
      rcases ih with ⟨hsrc, hdest, hseq, hid, hhop, httl⟩
      unfold requestAt passedOnRreq
      rw [forwardedRreq_eq]
      refine ⟨hsrc, hdest, hseq, hid, ?_, ?_⟩
      · simp only [hhop, BitVec.add_assoc, BitVec.ofNat_add]
        rfl
      · simp only [httl, BitVec.ofNat_add, BitVec.sub_sub]
        rfl

/-- A request on its way has gone `i` hops. -/
theorem Ready.hops_requestAt (i : Nat) (hi : i ≤ x.relays) :
    ((x.requestAt i).hopCount + 1).setWidth 32 = BitVec.ofNat 32 (i + 1) := by
  have hcount := h.relays_lt
  rw [(x.requestAt_same i).2.2.2.2.1, h.hopCount, zero_add]
  apply BitVec.eq_of_toNat_eq
  have hone : (1 : Byte).toNat = 1 := rfl
  simp only [BitVec.toNat_setWidth, BitVec.toNat_add, BitVec.toNat_ofNat, hone]
  omega

/-- It has hops left to go where it is to be passed on. -/
theorem Ready.ttl_requestAt (i : Nat) (hi : i < x.relays) : 1 < (x.requestAt i).ttl := by
  have httl := h.ttl
  have hmax := x.request.ttl.isLt
  have hone : (1 : BitVec 11).toNat = 1 := rfl
  rw [(x.requestAt_same i).2.2.2.2.2, BitVec.lt_def, hone, BitVec.toNat_sub, BitVec.toNat_ofNat]
  omega

omit h in
/-- Passing a reply on changes its hop count only. -/
theorem replyAt_same (k : Nat) :
    (x.replyAt k).srcIp = x.answer.srcIp ∧ (x.replyAt k).destIp = x.answer.destIp ∧
      (x.replyAt k).destSeq = x.answer.destSeq ∧
      (x.replyAt k).hopCount = BitVec.ofNat 8 k := by
  induction k with
  | zero => exact ⟨rfl, rfl, rfl, rfl⟩
  | succ k ih =>
      rcases ih with ⟨hsrc, hdest, hseq, hhop⟩
      refine ⟨hsrc, hdest, hseq, ?_⟩
      unfold replyAt incrementHopRrep
      simp only [hhop, BitVec.ofNat_add]
      rfl

theorem Ready.hops_replyAt (k : Nat) (hk : k ≤ x.relays) :
    ((x.replyAt k).hopCount + 1).setWidth 32 = BitVec.ofNat 32 (k + 1) := by
  have hcount := h.relays_lt
  rw [(x.replyAt_same k).2.2.2]
  apply BitVec.eq_of_toNat_eq
  have hone : (1 : Byte).toNat = 1 := rfl
  simp only [BitVec.toNat_setWidth, BitVec.toNat_add, BitVec.toNat_ofNat, hone]
  omega

theorem Ready.answer_ends :
    x.answer.srcIp = x.address 0 ∧ x.answer.destIp = x.address (x.relays + 1) :=
  ⟨(x.requestAt_same x.relays).1.trans h.srcIp, h.addresses _ (Nat.le_refl _)⟩

end Messages

/-! ### Each node by itself -/

section Nodes

variable {x} (h : x.Ready)

include h

theorem Ready.slot_ne {i j : Nat} (hi : i ≤ x.relays + 1) (hj : j ≤ x.relays + 1) (hne : i ≠ j) :
    slotOf (x.address i) ≠ slotOf (x.address j) := fun hs => hne (h.apart i j hi hj hs)

theorem Ready.address_ne {i j : Nat} (hi : i ≤ x.relays + 1) (hj : j ≤ x.relays + 1) (hne : i ≠ j) :
    x.address i ≠ x.address j := fun heq => h.slot_ne hi hj hne (congrArg slotOf heq)

theorem Ready.src_requestAt (i : Nat) : (x.requestAt i).srcIp = x.address 0 :=
  (x.requestAt_same i).1.trans h.srcIp

theorem Ready.dest_requestAt (i : Nat) : (x.requestAt i).destIp = x.address (x.relays + 1) :=
  (x.requestAt_same i).2.1.trans h.destIp

theorem Ready.src_replyAt (k : Nat) : (x.replyAt k).srcIp = x.address 0 :=
  (x.replyAt_same k).1.trans h.answer_ends.1

theorem Ready.dest_replyAt (k : Nat) : (x.replyAt k).destIp = x.address (x.relays + 1) :=
  (x.replyAt_same k).2.1.trans h.answer_ends.2

/-- The node after the `i`-th takes the request. -/
theorem Ready.welcomes (i : Nat) (hi : i ≤ x.relays) :
    Welcomes (x.heardIn i) (x.address i) (x.requestAt i) (x.net (x.node (i + 1))) where
  toOpenToRequest := h.reverse i hi
  sender := by
    rw [h.addresses _ (by omega)]
    exact h.address_ne (by omega) (by omega) (by omega)
  origin := by
    rw [h.addresses _ (by omega), h.src_requestAt]
    exact h.address_ne (by omega) (by omega) (by omega)
  apart := by
    rw [h.src_requestAt]
    by_cases hzero : i = 0
    · exact Or.inl (by rw [hzero])
    · exact Or.inr (h.slot_ne (by omega) (by omega) (Ne.symm hzero))

/-- The node after the `i`-th when the request has written its route. -/
def heard (x : Discovery ι) (i : Nat) : Node :=
  atDecision (x.heardIn i) (x.address i) (x.requestAt i) (x.net (x.node (i + 1)))

theorem Ready.heard_back (i : Nat) (hi : i ≤ x.relays) :
    (x.heard i).HasRoute (x.address 0) (x.address i) x.request.srcSeq
      (BitVec.ofNat 32 (i + 1)) := by
  have hroute := atDecision_hasRoute (h.welcomes i hi)
  rwa [h.src_requestAt, (x.requestAt_same i).2.2.1, h.hops_requestAt i hi] at hroute

/-- A relay passes the request on. -/
theorem Ready.relay_hears (i : Nat) (hi : i < x.relays) :
    step (x.net (x.node (i + 1))) (x.requestInput i) =
      (x.heard i).call (.sendBroadcast (.rreq (x.requestAt (i + 1)))) := by
  refine relay_step (h.welcomes i (Nat.le_of_lt hi)) ?_ ?_ ?_ ?_ (h.ttl_requestAt i hi)
  · rw [h.addresses _ (by omega), h.dest_requestAt]
    exact h.address_ne (by omega) (by omega) (by omega)
  · rw [h.dest_requestAt]
    exact h.slot_ne (by omega) (by omega) (by omega)
  · rw [h.dest_requestAt, h.src_requestAt]
    exact h.slot_ne (by omega) (by omega) (by omega)
  · rw [(x.requestAt_same i).2.1]
    exact h.quiet i hi

/-- The last node answers. -/
theorem Ready.last_hears :
    step (x.net (x.node (x.relays + 1))) (x.requestInput x.relays) =
      (Op.sendUnicast (x.address x.relays) (.rrep x.answer [])).apply
        ((Op.writeSequenceNum (nextOwnSeq (incrementHopRreq (x.requestAt x.relays))
          (x.net (x.node (x.relays + 1))).sequenceNum)).apply
            ((Op.activate (x.requestAt x.relays).srcIp).apply (x.heard x.relays))) := by
  refine target_step (h.welcomes x.relays (Nat.le_refl _)) ?_
  rw [h.addresses _ (Nat.le_refl _), h.dest_requestAt]

/-- The node with the reply at hand: the `i`-th, as it is when it hears it. -/
def waiting (x : Discovery ι) : Nat → Node
  | 0 => x.net (x.node 0)
  | i + 1 => (x.heard i).call (.sendBroadcast (.rreq (x.requestAt (i + 1))))

theorem Ready.waiting_ipAddress (i : Nat) (hi : i ≤ x.relays + 1) :
    (x.waiting i).ipAddress = x.address i := by
  cases i with
  | zero => exact h.addresses 0 hi
  | succ i => exact (atDecision_ipAddress _ _ _ _).trans (h.addresses (i + 1) hi)

/-- Hearing the request has left the last node's entry as it was. -/
theorem Ready.waiting_dest (i : Nat) (hi : i ≤ x.relays) :
    (x.waiting i).getRoutingEntry (x.address (x.relays + 1)) =
      (x.net (x.node i)).getRoutingEntry (x.address (x.relays + 1)) := by
  cases i with
  | zero => rfl
  | succ i =>
      refine atDecision_others _ ?_ ?_
      · exact h.slot_ne (by omega) (by omega) (by omega)
      · rw [h.src_requestAt]
        exact h.slot_ne (by omega) (by omega) (by omega)

/-- The `i`-th node takes the reply. -/
theorem Ready.takesReply (i : Nat) (hi : i ≤ x.relays) :
    TakesReplyFrom (x.address (i + 1)) (x.replyAt (x.relays - i)) (x.waiting i) := by
  have hstored := h.waiting_dest i hi
  rcases h.forward i hi with ⟨hown, hfresh⟩
  rw [h.answer_ends.2] at hown hfresh
  refine ⟨⟨?_, ?_⟩, ?_, ?_, ?_⟩
  · rw [h.dest_replyAt, hstored]
    exact hown
  · rw [h.dest_replyAt, hstored, (x.replyAt_same _).2.2.1]
    exact hfresh
  · rw [h.waiting_ipAddress i (by omega)]
    exact h.address_ne (by omega) (by omega) (by omega)
  · rw [h.src_replyAt]
    exact h.named
  · rw [h.dest_replyAt]
    by_cases hlast : i = x.relays
    · exact Or.inl (by rw [hlast])
    · exact Or.inr (h.slot_ne (by omega) (by omega) (by omega))

/-- The node when the reply has written its route. -/
def replied (x : Discovery ι) (i : Nat) : Node :=
  atForward (x.repliedIn i) (x.address (i + 1)) (x.replyAt (x.relays - i)) (x.waiting i)

theorem Ready.replied_ahead (i : Nat) (hi : i ≤ x.relays) :
    (x.replied i).HasRoute (x.address (x.relays + 1)) (x.address (i + 1)) x.answer.destSeq
      (BitVec.ofNat 32 (x.relays + 1 - i)) := by
  have hroute := atForward_hasRoute (x.repliedIn i) (h.takesReply i hi)
  rw [h.dest_replyAt, (x.replyAt_same _).2.2.1, h.hops_replyAt _ (Nat.sub_le _ _)] at hroute
  rwa [show x.relays + 1 - i = x.relays - i + 1 by omega]

/-- The first node has found its route. -/
theorem Ready.first_replied :
    step (x.net (x.node 0)) (x.replyInput 0) =
      (Op.activate (x.address (x.relays + 1))).apply (x.replied 0) := by
  have hstep := originator_step (x.repliedIn 0) (h.takesReply 0 (Nat.zero_le _))
    (by rw [h.src_replyAt, h.waiting_ipAddress 0 (Nat.zero_le _)])
  rw [h.dest_replyAt] at hstep
  exact hstep

/-- A relay passes the reply on. -/
theorem Ready.relay_replied (i : Nat) (hi : i < x.relays) :
    step (x.waiting (i + 1)) (x.replyInput (i + 1)) =
      afterPassingReply (x.replyAt (x.relays - i)) (x.address (i + 2)) (x.address i)
        (x.replied (i + 1)) := by
  have hback := (h.heard_back i (Nat.le_of_lt hi)).table
  have hstep := relay_reply_step (x.repliedIn (i + 1)) (h.takesReply (i + 1) hi)
    (by rw [h.src_replyAt, h.waiting_ipAddress (i + 1) (by omega)]
        exact h.address_ne (by omega) (by omega) (by omega))
    (by rw [h.src_replyAt]; exact h.slot_ne (by omega) (by omega) (by omega))
    (by rw [h.src_replyAt, h.dest_replyAt]; exact h.slot_ne (by omega) (by omega) (by omega))
    (x.address i) (by rw [h.src_replyAt]; exact hback)
  rw [show x.relays - i = x.relays - (i + 1) + 1 by omega]
  exact hstep

end Nodes

/-! ### The routes -/

/-- What the deliveries leave in the network. -/
structure Established (net : Network ι) : Prop where
  addresses : ∀ i ≤ x.relays + 1, (net (x.node i)).ipAddress = x.address i
  /-- Every node but the last has the route to the last. -/
  ahead : ∀ i ≤ x.relays,
    (net (x.node i)).HasRoute (x.address (x.relays + 1)) (x.address (i + 1)) x.answer.destSeq
      (BitVec.ofNat 32 (x.relays + 1 - i))
  /-- Every node but the first has the route to the first. -/
  back : ∀ i ≤ x.relays,
    (net (x.node (i + 1))).HasRoute (x.address 0) (x.address i) x.request.srcSeq
      (BitVec.ofNat 32 (i + 1))
  neighbours : ∀ i ≤ x.relays, (net (x.node i)).isValid (x.address (i + 1)) = true ∧
    (net (x.node (i + 1))).isValid (x.address i) = true
  /-- A relay lists each of its neighbours under the end the other one leads to. -/
  listed : ∀ i < x.relays,
    (∀ e, (net (x.node (i + 1))).getRoutingEntry (x.address (x.relays + 1)) = some e →
        x.address i ∈ e.precursorList) ∧
      ∀ e, (net (x.node (i + 1))).getRoutingEntry (x.address 0) = some e →
        x.address (i + 2) ∈ e.precursorList
  /-- Every message delivered has been sent by the neighbour it came from. -/
  passed : ∀ i ≤ x.relays,
    .sendBroadcast (.rreq (x.requestAt i)) ∈ (net (x.node i)).log ∧
      .sendUnicast (x.address i) (.rrep (x.replyAt (x.relays - i)) []) ∈
        (net (x.node (i + 1))).log
  /-- The packets that wait at the first node are let go. -/
  found : ((x.net (x.node 0)).getRoutingEntry (x.address (x.relays + 1))).isSome = true →
    (net (x.node 0)).searchAt (x.address (x.relays + 1)) = .searchFound

section Routes

variable {x} (h : x.Ready)

include h

/-- The first node in the end. -/
theorem Ready.first_ahead :
    (step (x.net (x.node 0)) (x.replyInput 0)).HasRoute (x.address (x.relays + 1)) (x.address 1)
        x.answer.destSeq (BitVec.ofNat 32 (x.relays + 1)) ∧
      (step (x.net (x.node 0)) (x.replyInput 0)).isValid (x.address 1) = true := by
  have hroute := h.replied_ahead 0 (Nat.zero_le _)
  have hline := follows_line (.activate (x.address (x.relays + 1))) trivial (x.replied 0)
  rw [h.first_replied]
  refine ⟨hroute.of_line (hline _) ?_, ?_⟩
  · rw [apply_log]
    rfl
  · rw [isValid_of_line _ (hline _)]
    exact atForward_sender_isValid (x.repliedIn 0) (h.takesReply 0 (Nat.zero_le _))

/-- The last node in the end. -/
theorem Ready.last_back :
    let n := step (x.net (x.node (x.relays + 1))) (x.requestInput x.relays)
    n.HasRoute (x.address 0) (x.address x.relays) x.request.srcSeq
        (BitVec.ofNat 32 (x.relays + 1)) ∧
      n.isValid (x.address x.relays) = true ∧
      .sendUnicast (x.address x.relays) (.rrep x.answer []) ∈ n.log := by
  intro n
  have hroute := h.heard_back x.relays (Nat.le_refl _)
  have hlast : n = _ := h.last_hears
  have hline : ∀ ip, (n.getRoutingEntry ip).map RoutingEntry.line =
      ((x.heard x.relays).getRoutingEntry ip).map RoutingEntry.line := by
    intro ip
    rw [hlast, follows_line (.sendUnicast (x.address x.relays) (.rrep x.answer [])) trivial,
      follows_line (.writeSequenceNum _) trivial, follows_line (.activate _) trivial]
  have hlog : n.log = .sendUnicast (x.address x.relays) (.rrep x.answer []) ::
      (x.heard x.relays).log := by
    rw [hlast, apply_log, apply_log, apply_log]
    rfl
  refine ⟨hroute.of_line (hline _) (by rw [hlog]; rfl), ?_, ?_⟩
  · rw [isValid_of_line _ (hline _)]
    exact atDecision_sender_isValid (h.welcomes x.relays (Nat.le_refl _))
  · rw [hlog]
    exact List.mem_cons_self

/-- What passing the reply on leaves of a relay's routes and record. -/
theorem Ready.relay_end (i : Nat) (hi : i < x.relays) :
    let n := step (x.waiting (i + 1)) (x.replyInput (i + 1))
    (∀ ip, (n.getRoutingEntry ip).map RoutingEntry.line =
        ((x.replied (i + 1)).getRoutingEntry ip).map RoutingEntry.line) ∧
      n.log = .sendUnicast (x.address i) (.rrep (x.replyAt (x.relays - i)) []) ::
        (x.replied (i + 1)).log := by
  intro n
  have hend : n = _ := h.relay_replied i hi
  rw [hend]
  exact ⟨afterPassingReply_line _ _ _ _, afterPassingReply_log _ _ _ _⟩

/-- The reply has left the route back alone. -/
theorem Ready.replied_back (i : Nat) (hi : i < x.relays) :
    (x.replied (i + 1)).HasRoute (x.address 0) (x.address i) x.request.srcSeq
        (BitVec.ofNat 32 (i + 1)) ∧ (x.replied (i + 1)).isValid (x.address i) = true := by
  have hroute : (x.waiting (i + 1)).HasRoute (x.address 0) (x.address i) x.request.srcSeq
      (BitVec.ofNat 32 (i + 1)) :=
    ⟨(h.heard_back i (Nat.le_of_lt hi)).table, (h.heard_back i (Nat.le_of_lt hi)).kernel⟩
  have hvalid : (x.waiting (i + 1)).isValid (x.address i) = true :=
    atDecision_sender_isValid (h.welcomes i (Nat.le_of_lt hi))
  have hline : ∀ j ≤ i, ((x.replied (i + 1)).getRoutingEntry (x.address j)).map RoutingEntry.line =
      ((x.waiting (i + 1)).getRoutingEntry (x.address j)).map RoutingEntry.line := by
    intro j hj
    refine atForward_others _ _ _ _ _ ?_ ?_
    · exact h.slot_ne (by omega) (by omega) (by omega)
    · rw [h.dest_replyAt]
      exact h.slot_ne (by omega) (by omega) (by omega)
  refine ⟨hroute.of_line (hline 0 (Nat.zero_le _)) ?_, ?_⟩
  · unfold replied
    rw [atForward_kernel, h.dest_replyAt, if_neg (h.address_ne (by omega) (by omega) (by omega)),
      if_neg (h.address_ne (by omega) (by omega) (by omega))]
  · rw [isValid_of_line _ (hline i (Nat.le_refl _))]
    exact hvalid

variable [DecidableEq ι] (inputs : List (NetInput ι)) (hd : x.Delivers inputs)

include hd

/-- The nodes at the end of the run. -/
theorem Ready.run_relay (i : Nat) (hi : i < x.relays) :
    run netStep x.net inputs (x.node (i + 1)) =
      step (x.waiting (i + 1)) (x.replyInput (i + 1)) := by
  rw [run_netStep_apply, hd.between i hi, run_cons, run_cons, run_nil, h.relay_hears i hi]
  rfl

/-- The deliveries of one request and its reply along a row of nodes, in any order and
    with anything happening elsewhere, leave every node of the row with routes to both
    ends over its neighbours. -/
theorem Ready.establishes : x.Established (run netStep x.net inputs) := by
  have hfirst : run netStep x.net inputs (x.node 0) = step (x.net (x.node 0)) (x.replyInput 0) := by
    rw [run_netStep_apply, hd.first, run_cons, run_nil]
  have hlast : run netStep x.net inputs (x.node (x.relays + 1)) =
      step (x.net (x.node (x.relays + 1))) (x.requestInput x.relays) := by
    rw [run_netStep_apply, hd.last, run_cons, run_nil]
  have hrelay := h.run_relay inputs hd
  have haddress : ∀ i ≤ x.relays + 1,
      (run netStep x.net inputs (x.node i)).ipAddress = x.address i :=
    fun i hi => (run_ipAddress x.net inputs).trans (h.addresses i hi)
  have hahead : ∀ i ≤ x.relays, (run netStep x.net inputs (x.node i)).HasRoute
      (x.address (x.relays + 1)) (x.address (i + 1)) x.answer.destSeq
        (BitVec.ofNat 32 (x.relays + 1 - i)) ∧
      (run netStep x.net inputs (x.node i)).isValid (x.address (i + 1)) = true := by
    intro i hi
    cases i with
    | zero =>
        rw [hfirst]
        exact h.first_ahead
    | succ j =>
        rw [hrelay j hi]
        rcases h.relay_end j hi with ⟨hline, hlog⟩
        refine ⟨(h.replied_ahead (j + 1) hi).of_line (hline _) (by rw [hlog]; rfl), ?_⟩
        rw [isValid_of_line _ (hline _)]
        exact atForward_sender_isValid (x.repliedIn (j + 1)) (h.takesReply (j + 1) hi)
  have hback : ∀ i ≤ x.relays, (run netStep x.net inputs (x.node (i + 1))).HasRoute (x.address 0)
      (x.address i) x.request.srcSeq (BitVec.ofNat 32 (i + 1)) ∧
      (run netStep x.net inputs (x.node (i + 1))).isValid (x.address i) = true ∧
      .sendUnicast (x.address i) (.rrep (x.replyAt (x.relays - i)) []) ∈
        (run netStep x.net inputs (x.node (i + 1))).log := by
    intro i hi
    rcases Nat.lt_or_eq_of_le hi with hlt | rfl
    · rw [hrelay i hlt]
      rcases h.relay_end i hlt with ⟨hline, hlog⟩
      rcases h.replied_back i hlt with ⟨hroute, hvalid⟩
      refine ⟨hroute.of_line (hline _) (by rw [hlog]; rfl), ?_, ?_⟩
      · rw [isValid_of_line _ (hline _)]
        exact hvalid
      · rw [hlog]
        exact List.mem_cons_self
    · rw [hlast, Nat.sub_self]
      exact h.last_back
  refine ⟨haddress, fun i hi => (hahead i hi).1, fun i hi => (hback i hi).1,
    fun i hi => ⟨(hahead i hi).2, (hback i hi).2.1⟩, fun i hi => ?_,
    fun i hi => ⟨?_, (hback i hi).2.2⟩, fun hsome => ?_⟩
  · rw [hrelay i hi, h.relay_replied i hi]
    have hlists := afterPassingReply_lists (x.replyAt (x.relays - i)) (x.address (i + 2))
      (x.address i) (x.replied (i + 1))
    rw [h.dest_replyAt, h.src_replyAt] at hlists
    exact hlists
  · -- What has been broadcast stays in the record.
    cases i with
    | zero =>
        rw [hfirst, log_step]
        exact List.mem_append_right _ h.sent
    | succ j =>
        rw [hrelay j hi, log_step]
        exact List.mem_append_right _ List.mem_cons_self
  · have hpublished := originator_searchAt (x.repliedIn 0) (h.takesReply 0 (Nat.zero_le _))
      (by rw [h.src_replyAt, h.waiting_ipAddress 0 (Nat.zero_le _)])
      (by rw [h.dest_replyAt]; exact hsome)
    rw [h.dest_replyAt] at hpublished
    rw [hfirst]
    exact hpublished

end Routes

/-! ### A schedule -/

/-- The deliveries in the order they come about: the request down the row, and the reply
    back up. -/
def requests (x : Discovery ι) (k : Nat) : List (NetInput ι) :=
  (List.range k).map fun i => ⟨x.node (i + 1), x.requestInput i⟩

def replies (x : Discovery ι) (k : Nat) : List (NetInput ι) :=
  (List.range k).map fun i => ⟨x.node (x.relays - i), x.replyInput (x.relays - i)⟩

def schedule (x : Discovery ι) : List (NetInput ι) :=
  x.requests (x.relays + 1) ++ x.replies (x.relays + 1)

section Schedule

variable [DecidableEq ι] {x} (h : x.Ready)

include h

omit [DecidableEq ι] in
theorem Ready.node_inj {i j : Nat} (hi : i ≤ x.relays + 1) (hj : j ≤ x.relays + 1)
    (heq : x.node i = x.node j) : i = j := by
  by_contra hne
  refine h.address_ne hi hj hne ?_
  rw [← h.addresses i hi, ← h.addresses j hj, heq]

/-- Of the first `k` requests a node hears the one for its place. -/
theorem Ready.inputsOf_requests (k j : Nat) (hk : k ≤ x.relays + 1) (hj : j ≤ x.relays + 1) :
    inputsOf (x.node j) (x.requests k) =
      if 1 ≤ j ∧ j ≤ k then [x.requestInput (j - 1)] else [] := by
  induction k with
  | zero =>
      rw [if_neg (by omega)]
      rfl
  | succ k ih =>
      rw [requests, List.range_succ, List.map_append, inputsOf_append, ← requests, ih (by omega),
        List.map_singleton, inputsOf_singleton]
      by_cases heq : j = k + 1
      · rw [heq, if_neg (show ¬(1 ≤ k + 1 ∧ k + 1 ≤ k) by omega), if_pos rfl, if_pos (by omega)]
        rfl
      · have hother : ¬ x.node (k + 1) = x.node j := fun hnode => heq (h.node_inj hj hk hnode.symm)
        rw [if_neg hother, List.append_nil]
        exact if_congr (by omega) rfl rfl

/-- Of the first `k` replies it hears the one for its place. -/
theorem Ready.inputsOf_replies (k j : Nat) (hk : k ≤ x.relays + 1) (hj : j ≤ x.relays + 1) :
    inputsOf (x.node j) (x.replies k) =
      if j ≤ x.relays ∧ x.relays < j + k then [x.replyInput j] else [] := by
  induction k with
  | zero =>
      rw [if_neg (by omega)]
      rfl
  | succ k ih =>
      rw [replies, List.range_succ, List.map_append, inputsOf_append, ← replies, ih (by omega),
        List.map_singleton, inputsOf_singleton]
      by_cases heq : j = x.relays - k
      · rw [heq, if_neg (show ¬(x.relays - k ≤ x.relays ∧ x.relays < x.relays - k + k) by omega),
          if_pos rfl, if_pos (by omega)]
        rfl
      · have hother : ¬ x.node (x.relays - k) = x.node j :=
          fun hnode => heq (h.node_inj hj (by omega) hnode.symm)
        rw [if_neg hother, List.append_nil]
        exact if_congr (by omega) rfl rfl

/-- The schedule delivers each message once. -/
theorem Ready.schedule_delivers : x.Delivers x.schedule := by
  have hinputs : ∀ j ≤ x.relays + 1, inputsOf (x.node j) x.schedule =
      (if 1 ≤ j then [x.requestInput (j - 1)] else []) ++
        if j ≤ x.relays then [x.replyInput j] else [] := by
    intro j hj
    rw [schedule, inputsOf_append, h.inputsOf_requests _ j (Nat.le_refl _) hj,
      h.inputsOf_replies _ j (Nat.le_refl _) hj]
    exact congrArg₂ _ (if_congr (by omega) rfl rfl) (if_congr (by omega) rfl rfl)
  refine ⟨?_, fun i hi => ?_, ?_⟩
  · rw [hinputs 0 (Nat.zero_le _), if_neg (by omega), if_pos (Nat.zero_le _)]
    rfl
  · rw [hinputs (i + 1) (by omega), if_pos (by omega), if_pos (by omega)]
    rfl
  · rw [hinputs _ (Nat.le_refl _), if_pos (by omega), if_neg (by omega)]
    rfl

/-- When the node after the `k`-th hears the request, the `k`-th has broadcast it. -/
theorem Ready.requests_carried : AllSteps netStep Carried x.net (x.requests (x.relays + 1)) := by
  refine allSteps_range netStep Carried x.net _ _ (fun k hk => ?_)
  have hnode : run netStep x.net (x.requests k) (x.node k) =
      run step (x.net (x.node k)) (if 1 ≤ k then [x.requestInput (k - 1)] else []) := by
    rw [run_netStep_apply, h.inputsOf_requests k k (by omega) (by omega)]
    exact congrArg _ (if_congr (by omega) rfl rfl)
  refine ⟨x.node k, .rreq (x.requestAt k), ?_, rfl, Or.inl ?_⟩
  · exact (run_ipAddress _ _).trans (h.addresses k (by omega))
  · show _ ∈ (run netStep x.net (x.requests k) (x.node k)).log
    rw [hnode]
    cases k with
    | zero => exact h.sent
    | succ j =>
        rw [if_pos (by omega), run_cons, run_nil, Nat.add_sub_cancel, h.relay_hears j (by omega)]
        exact List.mem_cons_self

/-- When a node hears the reply, the one after it has sent it there. -/
theorem Ready.schedule_carried : AllSteps netStep Carried x.net x.schedule := by
  refine (allSteps_append _ _ _ _ _).mpr ⟨h.requests_carried, ?_⟩
  refine allSteps_range netStep Carried _ _ _ (fun k hk => ?_)
  -- The reply comes to the node before the `i`-th of the row from its end.
  have hi : x.relays - k ≤ x.relays := Nat.sub_le _ _
  rw [← replies, ← run_append]
  generalize hpast : x.requests (x.relays + 1) ++ x.replies k = past
  have hinputs : ∀ j ≤ x.relays + 1, inputsOf (x.node j) past =
      (if 1 ≤ j then [x.requestInput (j - 1)] else []) ++
        if j ≤ x.relays ∧ x.relays < j + k then [x.replyInput j] else [] := by
    intro j hj
    rw [← hpast, inputsOf_append, h.inputsOf_requests _ j (Nat.le_refl _) hj,
      h.inputsOf_replies k j (by omega) hj]
    exact congrArg (· ++ _) (if_congr (by omega) rfl rfl)
  have haddress : ∀ j ≤ x.relays + 1, (run netStep x.net past (x.node j)).ipAddress = x.address j :=
    fun j hj => (run_ipAddress _ _).trans (h.addresses j hj)
  refine ⟨x.node (x.relays - k + 1), .rrep (x.replyAt (x.relays - (x.relays - k))) [], ?_, rfl,
    Or.inr ?_⟩
  · exact haddress _ (by omega)
  · show .sendUnicast (run netStep x.net past (x.node (x.relays - k))).ipAddress _ ∈
      (run netStep x.net past (x.node (x.relays - k + 1))).log
    rw [haddress _ (by omega), run_netStep_apply, hinputs _ (by omega), if_pos (by omega)]
    rcases Nat.lt_or_eq_of_le hi with hlt | heq
    · rw [if_pos (by omega), List.singleton_append, run_cons, run_cons, run_nil, Nat.add_sub_cancel,
        h.relay_hears _ hlt]
      rcases h.relay_end _ hlt with ⟨-, hlog⟩
      have hsent := congrArg (fun log => ApiCall.sendUnicast (x.address (x.relays - k))
        (.rrep (x.replyAt (x.relays - (x.relays - k))) []) ∈ log) hlog
      exact hsent.mpr List.mem_cons_self
    · rw [heq, if_neg (by omega), List.append_nil, run_cons, run_nil, Nat.add_sub_cancel,
        Nat.sub_self]
      exact h.last_back.2.2

end Schedule

/-- A request that the tables of a row of nodes let through, and its reply, find their
    way by what each node sends to the next; and however their deliveries come to pass,
    with anything happening elsewhere, they leave every node of the row with routes to
    both ends over its neighbours. -/
theorem succeeds [DecidableEq ι] (x : Discovery ι) (h : x.Ready) :
    (∃ inputs, x.Delivers inputs ∧ AllSteps netStep Carried x.net inputs) ∧
      ∀ inputs, x.Delivers inputs → x.Established (run netStep x.net inputs) :=
  ⟨⟨x.schedule, h.schedule_delivers, h.schedule_carried⟩, fun inputs hd => h.establishes inputs hd⟩

end Discovery

/-! ### A row of three -/

/-- Its nodes, from one end to the other. -/
def Row.first : Fin 3 := Fin.castSucc (Fin.castSucc (Fin.last 0))

def Row.middle : Fin 3 := Fin.castSucc (Fin.last 1)

def Row.last : Fin 3 := Fin.last 2

/-- The first of three nodes asks for the third in its second ring. -/
def secondRing : Discovery (Fin 3) where
  relays := 1
  node i := if i = 0 then Row.first else if i = 1 then Row.middle else Row.last
  address i := BitVec.ofNat 32 (i + 1) <<< 24
  net := run netStep (Network.boot 3)
    [⟨Row.first, { env := .clear, event := .outgoing 0x03000000 }⟩,
      ⟨Row.first, { env := .clear, event := .search 1 }⟩,
      ⟨Row.first, { env := .clear, event := .search 1 }⟩]
  request := { firstRequest with rreqId := 2, ttl := 3 }
  heardIn _ := .clear
  repliedIn _ := .clear

theorem secondRing_ready : secondRing.Ready where
  addresses := by decide
  apart := by
    have hslots : ∀ i ≤ 2, ∀ j ≤ 2,
        slotOf (secondRing.address i) = slotOf (secondRing.address j) → i = j := by decide
    exact fun i j hi hj => hslots i hi j hj
  named := by decide
  srcIp := rfl
  destIp := rfl
  hopCount := rfl
  ttl := by decide
  sent := by decide
  reverse i hi := by
    refine ⟨?_, ?_, ?_, ?_⟩
    · decide +revert
    · decide +revert
    · decide +revert
    · decide +revert
  quiet := by decide
  forward i hi := by
    refine ⟨?_, ?_⟩
    · decide +revert
    · decide +revert

theorem succeeds_secondRing :
    secondRing.Established (run netStep secondRing.net secondRing.schedule) :=
  (secondRing.succeeds secondRing_ready).2 _ secondRing_ready.schedule_delivers

end OpenManet
