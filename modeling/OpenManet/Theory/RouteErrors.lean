import OpenManet.Core.Network
import OpenManet.Theory.Guards
import OpenManet.Theory.Requests
import Mathlib.Algebra.Order.BigOperators.Group.Finset

/-!
# Route Errors Die Out

A RERR has no counter and no id. What ends its propagation is that a node passes
one on only after it has made a valid route invalid, and that nothing a RERR does
makes a route valid. So the packets sent plus the valid routes left is a sum that
no delivery raises, at one node and hence over the network, whatever pairs the
messages carry, whoever they are said to come from and wherever the next hops lead.

A second delivery finds no route left to break: the routes through the sender to
the destinations it names are invalid, and no RERR after it has changed that.

## Main definitions

* `Node.validRoutes`, `Network.validRoutes`, `Network.packetsSent`: The two terms.
* `DeliversRerr`: A RERR is delivered.
* `NoRouteThrough`, `Settled`: A sender's RERR has nothing left to break.

## Theorems

* `rerrLoop_pays`: What one RERR sends is paid for by a route.
* `settled_of_delivered`, `step_of_settled`: What a RERR leaves, and what one does
  that finds nothing left.
* `errors_die_out`: Every re-send is paid for, and repeated deliveries do nothing.
-/

namespace OpenManet

/-- The number of `ROUTE_VALID` entries. -/
def Node.validRoutes (n : Node) : Nat := n.countEntries fun e => e.status = .routeValid

/-! ### One delivery -/

/-- Breaking a valid route costs one and sends nothing. -/
theorem breakRoute_pays (env : Env) (ip destSeq : U32) (n : Node) (e : RoutingEntry)
    (he : n.getRoutingEntry ip = some e) (hvalid : e.status = .routeValid) :
    ((Op.breakRoute env ip destSeq).apply n).packetsSent = n.packetsSent ∧
      ((Op.breakRoute env ip destSeq).apply n).validRoutes + 1 = n.validRoutes := by
  constructor
  · unfold Node.packetsSent
    rw [apply_log, Op.calls, Node.whenFound, he]
    rfl
  · have hcount := countEntries_update (fun e => e.status = .routeValid) n
      (.breakRoute env ip destSeq) ip (RoutingEntry.breakRoute env destSeq) rfl e he
    have hbefore : (decide (e.status = .routeValid)).toNat = 1 := by
      rw [hvalid]
      rfl
    have hafter : (decide ((e.breakRoute env destSeq).status = .routeValid)).toNat = 0 := rfl
    unfold Node.validRoutes
    omega

/-- The send at the end of a RERR is one packet. -/
theorem send_pays (target : RerrTarget) (packet : Packet) (n : Node) :
    ((target.send packet).apply n).packetsSent = n.packetsSent + 1 ∧
      ((target.send packet).apply n).validRoutes = n.validRoutes := by
  unfold RerrTarget.send
  split
  · exact ⟨List.countP_cons_of_pos rfl, rfl⟩
  · exact ⟨List.countP_cons_of_pos rfl, rfl⟩

/-- What is sent upon a RERR is paid for by a route that was valid. With pairs
    collected already the send is paid for. -/
theorem rerrLoop_pays (env : Env) (s : U32) (pairs : List (U32 × U32)) (l : RerrLocals) (n : Node) :
    ((rerrLoop env s pairs l).exec Op.apply n).1.packetsSent +
        ((rerrLoop env s pairs l).exec Op.apply n).1.validRoutes ≤
      n.packetsSent + n.validRoutes + (if l.numDests = 0 then 0 else 1) := by
  induction pairs generalizing l n with
  | nil =>
      unfold rerrLoop
      by_cases hnone : l.numDests = 0
      · rw [if_pos hnone, if_pos hnone]
        exact Nat.le_refl _
      · have hsend := send_pays l.target l.packet n
        simp only [if_neg hnone, Prog.exec, acceptPacket]
        omega
  | cons pair rest ih =>
      simp only [rerrLoop, Prog.exec]
      cases he : n.getRoutingEntry pair.1 with
      | none => exact ih l n
      | some e =>
          by_cases hthrough : e.goesThrough s = true
          · have hpays :=
              breakRoute_pays env pair.1 pair.2 n e he (goesThrough_valid s e hthrough).2
            have hrest := ih (l.collect e pair.2) ((Op.breakRoute env pair.1 pair.2).apply n)
            simp only [if_pos hthrough, Prog.exec, he]
            -- The route broken pays for the send that may follow from now on.
            split at hrest
            · split <;> omega
            · split <;> omega
          · simp only [if_neg hthrough]
            exact ih l n

/-! ### A second delivery -/

/-- No valid route to the address goes through the sender. -/
def NoRouteThrough (s ip : U32) (n : Node) : Prop :=
  ∀ e, n.getRoutingEntry ip = some e → e.goesThrough s = false

/-- The operations of the handler of a RERR. -/
def Op.PassesError : Op → Prop
  | breakRoute _ _ _ | sendUnicast _ _ | sendBroadcast _ => True
  | _ => False

theorem rerrLoop_passesError (env : Env) (s : U32) (pairs : List (U32 × U32)) (l : RerrLocals)
    (n : Node) : (rerrLoop env s pairs l).Meets Op.apply (fun o _ => o.PassesError) n := by
  induction pairs generalizing l n with
  | nil =>
      unfold rerrLoop
      split
      · trivial
      · refine ⟨?_, trivial⟩
        unfold RerrTarget.send
        split <;> trivial
  | cons pair rest ih =>
      simp only [rerrLoop, Prog.Meets]
      split
      · exact ih l n
      · split
        · exact ⟨trivial, ih _ _⟩
        · exact ih l n

/-- Where no route goes through the sender, no RERR makes one. -/
theorem noRouteThrough_apply (s ip : U32) (o : Op) (n : Node) (h : NoRouteThrough s ip n)
    (ho : o.PassesError) : NoRouteThrough s ip (o.apply n) := by
  intro e he
  rw [Node.getRoutingEntry_eq, apply_slots] at he
  cases o with
  | breakRoute env ip' destSeq =>
      simp only [Op.effect, Effect.slot] at he
      split at he
      · rcases Option.map_eq_some_iff.mp he with ⟨old, hold, rfl⟩
        exact Bool.and_false _
      · exact h e he
  | sendUnicast dest packet => exact h e he
  | sendBroadcast packet => exact h e he
  | _ => exact absurd ho id

theorem rerrLoop_noRouteThrough (env : Env) (s s' ip : U32) (pairs : List (U32 × U32))
    (l : RerrLocals) (n : Node) (h : NoRouteThrough s' ip n) :
    NoRouteThrough s' ip ((rerrLoop env s pairs l).exec Op.apply n).1 :=
  Prog.exec_invariant Op.apply (fun o _ => o.PassesError) (NoRouteThrough s' ip)
    (fun o n hn ho => noRouteThrough_apply s' ip o n hn ho) _ n h
    (rerrLoop_passesError env s pairs l n)

/-- After a RERR no valid route goes through its sender to a destination it names. -/
theorem rerrLoop_settles (env : Env) (s : U32) (pairs : List (U32 × U32)) (l : RerrLocals)
    (n : Node) :
    ∀ p ∈ pairs, NoRouteThrough s p.1 ((rerrLoop env s pairs l).exec Op.apply n).1 := by
  induction pairs generalizing l n with
  | nil => exact fun p hp => absurd hp List.not_mem_nil
  | cons pair rest ih =>
      -- The first destination is settled by its round and stays so in the others.
      have hround : ∀ l' n', NoRouteThrough s pair.1 n' →
          ∀ p ∈ pair :: rest,
            NoRouteThrough s p.1 ((rerrLoop env s rest l').exec Op.apply n').1 := by
        intro l' n' hfirst p hp
        rcases List.mem_cons.mp hp with rfl | hp
        · exact rerrLoop_noRouteThrough env s s p.1 rest l' n' hfirst
        · exact ih l' n' p hp
      simp only [rerrLoop, Prog.exec]
      cases he : n.getRoutingEntry pair.1 with
      | none => exact hround l n (fun e he' => by cases he.symm.trans he')
      | some e =>
          by_cases hthrough : e.goesThrough s = true
          · simp only [if_pos hthrough, Prog.exec]
            refine hround _ _ (fun e' he' => ?_)
            rw [Node.getRoutingEntry_eq] at he
            rw [Node.getRoutingEntry_eq, apply_slots] at he'
            simp only [Op.effect, Effect.slot, if_true, he, Option.map_some,
              Option.some.injEq] at he'
            rw [← he']
            exact Bool.and_false _
          · simp only [if_neg hthrough]
            refine hround l n (fun e' he' => ?_)
            cases he.symm.trans he'
            exact Bool.eq_false_iff.mpr hthrough

/-- A RERR that finds no route to break does nothing. -/
theorem rerrLoop_settled (env : Env) (s : U32) (pairs : List (U32 × U32)) (l : RerrLocals)
    (n : Node) (hl : l.numDests = 0) (h : ∀ p ∈ pairs, NoRouteThrough s p.1 n) :
    ((rerrLoop env s pairs l).exec Op.apply n).1 = n := by
  induction pairs with
  | nil =>
      unfold rerrLoop
      rw [if_pos hl]
      rfl
  | cons pair rest ih =>
      have hrest := ih (fun p hp => h p (List.mem_cons_of_mem _ hp))
      simp only [rerrLoop, Prog.exec]
      cases he : n.getRoutingEntry pair.1 with
      | none => exact hrest
      | some e =>
          have hthrough := h pair List.mem_cons_self e he
          simp only [hthrough, Bool.false_eq_true, if_false]
          exact hrest

/-! ### The network -/

/-- The input delivers a RERR. -/
def Input.IsRerr (input : Input) : Prop :=
  match input.event with
  | .control _ (.rerr _ _) => True
  | _ => False

theorem isRerr_cases (input : Input) (h : input.IsRerr) :
    ∃ s header destPairs, input.event = .control s (.rerr header destPairs) := by
  rcases input with ⟨env, event⟩
  unfold Input.IsRerr at h
  split at h
  · exact ⟨_, _, _, ‹_›⟩
  · exact absurd h id

/-- What a node sends upon a RERR is paid for by its routes. -/
theorem step_pays (n : Node) (input : Input) (h : input.IsRerr) :
    (step n input).packetsSent + (step n input).validRoutes ≤ n.packetsSent + n.validRoutes := by
  rcases isRerr_cases input h with ⟨s, header, destPairs, hevent⟩
  rcases input with ⟨env, event⟩
  simp only [] at hevent
  rw [hevent, step_rerr]
  split
  · exact Nat.le_refl _
  · have hpays := rerrLoop_pays env s (rerrPairs header.destCount destPairs)
      { target := { singleRerr := 0, broadcastRerr := false }, numDests := 0
        pairs := wordAt (env.memory .rerrPairs) } n
    exact hpays

/-- The node has nothing to do for a RERR of the sender about these pairs: it is the
    sender itself, or no route is left to break. -/
def Settled (s : U32) (pairs : List (U32 × U32)) (n : Node) : Prop :=
  s = n.ipAddress ∨ ∀ p ∈ pairs, NoRouteThrough s p.1 n

theorem step_settled (s : U32) (pairs : List (U32 × U32)) (n : Node) (input : Input)
    (hin : input.IsRerr) (h : Settled s pairs n) : Settled s pairs (step n input) := by
  rcases isRerr_cases input hin with ⟨s', header, destPairs, hevent⟩
  rcases input with ⟨env, event⟩
  simp only [] at hevent
  rcases h with hown | hnone
  · exact Or.inl ((step_ipAddress n _).symm ▸ hown)
  · rw [hevent, step_rerr]
    right
    intro p hp
    split
    · exact hnone p hp
    · exact rerrLoop_noRouteThrough env s' s p.1 _ _ n (hnone p hp)

/-- A delivery settles the RERR. -/
theorem settled_of_delivered (n : Node) (env : Env) (s : U32) (header : RerrHeader)
    (destPairs : Nat → U32) :
    Settled s (rerrPairs header.destCount destPairs)
      (step n { env := env, event := .control s (.rerr header destPairs) }) := by
  rw [step_rerr]
  split
  · exact Or.inl ‹_›
  · exact Or.inr (rerrLoop_settles env s _ _ n)

/-- Delivering a settled RERR does nothing. -/
theorem step_of_settled (n : Node) (env : Env) (s : U32) (header : RerrHeader)
    (destPairs : Nat → U32) (h : Settled s (rerrPairs header.destCount destPairs) n) :
    step n { env := env, event := .control s (.rerr header destPairs) } = n := by
  rw [step_rerr]
  split
  · rfl
  · rcases h with hown | hnone
    · exact absurd hown ‹_›
    · exact rerrLoop_settled env s _ _ n rfl hnone

section Network

variable {ι : Type} [DecidableEq ι]

def DeliversRerr (_net : Network ι) (a : NetInput ι) : Prop := a.input.IsRerr

variable [Fintype ι]

/-- The number of `ROUTE_VALID` entries in the whole network. -/
def Network.validRoutes (net : Network ι) : Nat := ∑ i, (net i).validRoutes

/-- The number of packets sent in the whole network. -/
def Network.packetsSent (net : Network ι) : Nat := ∑ i, (net i).packetsSent

/-- No delivery of a RERR raises what is sent plus the routes left. -/
theorem netStep_pays (net : Network ι) (a : NetInput ι) (h : DeliversRerr net a) :
    (netStep net a).packetsSent + (netStep net a).validRoutes ≤
      net.packetsSent + net.validRoutes := by
  unfold Network.packetsSent Network.validRoutes
  rw [← Finset.sum_add_distrib, ← Finset.sum_add_distrib]
  refine Finset.sum_le_sum (fun i _ => ?_)
  by_cases hi : i = a.node
  · rw [hi, netStep_self]
    exact step_pays (net a.node) a.input h
  · rw [netStep_ne net a i hi]

/-- In every run of deliveries of RERRs from any network, the packets sent are no
    more than the valid routes there were, and the delivery of a RERR that the node
    has had from the same sender before leaves the network as it is. -/
theorem errors_die_out (net₀ : Network ι) :
    (∀ inputs, AllSteps netStep DeliversRerr net₀ inputs →
      (run netStep net₀ inputs).packetsSent ≤ net₀.packetsSent + net₀.validRoutes) ∧
    ∀ before between i env env' s header destPairs,
      AllSteps netStep DeliversRerr net₀
        (before ++ ⟨i, env, .control s (.rerr header destPairs)⟩ :: between) →
      let net := run netStep net₀
        (before ++ ⟨i, env, .control s (.rerr header destPairs)⟩ :: between)
      netStep net ⟨i, env', .control s (.rerr header destPairs)⟩ = net := by
  constructor
  · intro inputs hinputs
    have hpays := run_invariant netStep DeliversRerr
      (fun net => net.packetsSent + net.validRoutes ≤ net₀.packetsSent + net₀.validRoutes)
      (fun net a hnet ha => Nat.le_trans (netStep_pays net a ha) hnet) net₀ inputs
      (Nat.le_refl _) hinputs
    omega
  · intro before between i env env' s header destPairs hinputs
    rcases (allSteps_append netStep DeliversRerr net₀ before _).mp hinputs with ⟨-, -, hbetween⟩
    simp only []
    rw [run_append, run_cons]
    -- The first delivery settles the RERR at the node, and no later one unsettles it.
    have hfirst : Settled s (rerrPairs header.destCount destPairs)
        (netStep (run netStep net₀ before) ⟨i, env, .control s (.rerr header destPairs)⟩ i) := by
      rw [netStep_self]
      exact settled_of_delivered _ env s header destPairs
    have hsettled := network_invariant DeliversRerr
      (Settled s (rerrPairs header.destCount destPairs)) i
      (fun net a _ hn ha => step_settled s _ (net i) a.input ha hn) _ between hfirst hbetween
    refine funext (fun j => ?_)
    by_cases hj : j = i
    · rw [hj, netStep_self]
      exact step_of_settled _ env' s header destPairs hsettled
    · exact netStep_ne _ _ j hj

end Network

/-- The first of two nodes has a route to 3.0.0.0 over the second. -/
def routeOverNeighbour : Network (Fin 2) :=
  run netStep (Network.boot 2)
    [⟨⟨0, Nat.two_pos⟩, receive 0x02000000 (replyAfter 0 0x03000000 7 0x01000000)⟩]

/-- The second node reports the route lost, twice. -/
theorem errors_die_out_twice :
    let lost : NetInput (Fin 2) := ⟨0, receive 0x02000000 (errorAbout 0x03000000 8)⟩
    (run netStep routeOverNeighbour [lost, lost]).packetsSent ≤
        routeOverNeighbour.packetsSent + routeOverNeighbour.validRoutes ∧
      netStep (run netStep routeOverNeighbour [lost]) lost =
        run netStep routeOverNeighbour [lost] := by
  rcases errors_die_out routeOverNeighbour with ⟨hbound, hagain⟩
  exact ⟨hbound _ ⟨trivial, trivial, trivial⟩,
    hagain [] [] 0 .clear .clear 0x02000000 _ _ ⟨trivial, trivial⟩⟩

end OpenManet
