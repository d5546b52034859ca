import OpenManet.Core.Network
import OpenManet.Theory.Guards

/-!
# Flooding Route Requests

A request carries two counters, the hops behind it and the hops it may still go.
A node that broadcasts a request again moves one hop from the second to the first,
so their sum is what the search thread set out with, and that is the TTL of its
first broadcast, since it starts with no hops. The search thread in turn takes its
TTL from the hop count stored for the destination, from its ring, or from the
diameter of the network, and never sends more than the diameter.

`Flooded` follows a request through a run from the search thread that sent it, over
the nodes that broadcast it again, counting them. The conclusions are about every
request so followed, and every request in flight is one.

## Main definitions

* `FloodReady`: Hop counts fit eight bits and threads count within the diameter.
* `RequestFrom`: Why a node broadcasts a request.
* `RequestsCarried`: The requests that arrive are in flight.
* `Flooded`: A request on its way, with its budget.
* `WithinBudget`, `Op.WithinDiameter`: What holds of it and of what is written upon it.

## Theorems

* `step_requests`: The requests a step broadcasts.
* `flooding_keeps_budget`: Flooding keeps its budget.
-/

namespace OpenManet

/-- What the thread sends next has gone no hops and is to go one at least. -/
def SearchThread.WithinRing (t : SearchThread) : Prop :=
  match t.stage with
  | .starting => True
  | .ring rreq ttl => rreq.hopCount = 0 ∧ 1 ≤ ttl.toNat
  | .retry rreq _ => rreq.hopCount = 0

/-- Stored hop counts fit the field they are taken from, and the search threads
    count within the diameter. -/
structure FloodReady (n : Node) : Prop where
  hops : n.Entries fun e => e.hopCount.toNat < 256
  threads : ∀ t ∈ n.threads, t.WithinRing

/-- Why a node broadcasts a request: its search thread sends it, or it has arrived
    and is passed on. -/
inductive RequestFrom (event : Event) (m : RreqHeader) : Prop where
  | search (id : Nat) (hevent : event = .search id) (hhop : m.hopCount = 0)
      (hpos : 1 ≤ m.ttl.toNat) (hle : m.ttl.toNat ≤ 35)
  | passedOn (s : U32) (m₀ : RreqHeader) (hevent : event = .control s (.rreq m₀))
      (hhop : m.hopCount = m₀.hopCount + 1) (hpos : ¬ m₀.ttl ≤ 1) (httl : m.ttl = m₀.ttl - 1)

/-! ### Search threads -/

theorem startTtl_pos (e : RoutingEntry) (h : e.hopCount.toNat < 256) : 1 ≤ (startTtl e).toNat := by
  unfold startTtl
  by_cases hhop : ttlStart > e.hopCount
  · rw [if_pos hhop]
    decide
  · -- The sum does not wrap because the stored count is small.
    have hinc : ttlIncrement.toNat = 2 := by decide
    rw [if_neg hhop, BitVec.toNat_add, hinc]
    omega

/-- What a search thread sends, and what it goes on to. -/
theorem asks_withinRing (n : Node) (t : SearchThread) (rreq : RreqHeader) (ttl : BitVec 11)
    (stage : SearchStage) (hn : FloodReady n) (ht : t ∈ n.threads) (h : t.Asks n rreq ttl stage) :
    rreq.hopCount = 0 ∧ 1 ≤ ttl.toNat ∧ ttl.toNat ≤ 35 ∧ { t with stage := stage }.WithinRing := by
  have hring := hn.threads t ht
  unfold SearchThread.WithinRing at hring
  cases h with
  | ring ttl hle hstage =>
      have hstate : rreq.hopCount = 0 ∧ 1 ≤ ttl.toNat := by
        rcases hstage with hstage | ⟨-, e, he, rfl, rfl⟩
        · rw [hstage] at hring
          exact hring
        · exact ⟨rfl, startTtl_pos e (hn.hops _ e he)⟩
      rcases hstate with ⟨hhop, hpos⟩
      -- The last ring asks with a TTL of seven at most, so adding two cannot wrap.
      have hseven : ttl.toNat ≤ 7 := hle
      have hfield : (ttl.setWidth 11).toNat = ttl.toNat := by
        rw [BitVec.toNat_setWidth]
        exact Nat.mod_eq_of_lt (by omega)
      have hinc : ttlIncrement.toNat = 2 := by decide
      have hnext : 1 ≤ (ttl + ttlIncrement).toNat := by
        rw [BitVec.toNat_add, hinc]
        omega
      exact ⟨hhop, by omega, by omega, hhop, hnext⟩
  | retry i hstage =>
      have hhop : rreq.hopCount = 0 := by
        rcases hstage with hstage | ⟨ttl, hstage⟩ | ⟨-, e, he, rfl⟩
        · rw [hstage] at hring
          exact hring
        · rw [hstage] at hring
          exact hring.1
        · rfl
      -- The retries ask with the diameter.
      have hdiameter : ((toU32 netDiameter).setWidth 11).toNat = 35 := by decide
      exact ⟨hhop, by omega, by omega, hhop⟩

/-! ### What a step keeps and sends -/

section Writes

variable (env : Env) (s : U32) (new : Bool) (e : RoutingEntry)

/-- A route written from a message has a hop count of eight bits. -/
theorem reverseRoute_hopCount (m : RreqHeader) (h : e.hopCount.toNat < 256) :
    (e.reverseRoute env s m new).hopCount.toNat < 256 := by
  by_cases hm : new = true ∨ fresherReverse m e = true
  · rcases reverseRoute_accepted env s new e m hm with ⟨t, ht⟩
    rw [ht]
    exact hopField_lt _
  · rcases reverseRoute_refused env s new e m hm with ⟨t, ht⟩
    rw [ht]
    exact h

theorem forwardRoute_hopCount (m : RrepHeader) (h : e.hopCount.toNat < 256) :
    (e.forwardRoute env s m new).hopCount.toNat < 256 := by
  by_cases hm : new = true ∨ fresherForward m e = true
  · rcases forwardRoute_accepted env s new e m hm with ⟨t, ht⟩
    rw [ht]
    exact hopField_lt _
  · rcases forwardRoute_refused env s new e m hm with ⟨t, ht⟩
    rw [ht]
    exact h

theorem hello_hopCount (m : RrepHeader) : (e.hello env m new).hopCount = e.hopCount := by
  by_cases hm : takesHello m new e
  · rcases hello_accepted env new e m hm with ⟨t, ht⟩
    rw [ht]
  · rw [hello_refused env new e m hm]

end Writes

/-- No write makes a hop count of more than eight bits. -/
theorem effect_hopCount (n : Node) (o : Op) (ip : U32) (f : RoutingEntry → RoutingEntry)
    (heff : o.effect n = .update ip f) (e : RoutingEntry) (h : e.hopCount.toNat < 256) :
    (f e).hopCount.toNat < 256 := by
  cases o with
  | previousHop env s l new =>
      cases heff
      rcases previousHop_eq env new e l with ⟨t, ht⟩
      rw [ht]
      exact h
  -- The route sections copy the byte of a message, or leave the count.
  | reverseRoute env s m new =>
      cases heff
      exact reverseRoute_hopCount env s new e m h
  | hello env m new =>
      cases heff
      rw [hello_hopCount]
      exact h
  | forwardRoute env s m new =>
      cases heff
      exact forwardRoute_hopCount env s new e m h
  | activate ip =>
      cases heff
      rw [activate_eq]
      exact h
  | write ip w =>
      cases heff
      cases w <;> exact h
  | searchFound | breakRoute | linkBreak | outgoingBreak | expireRoute | startSearch
  | searchFailed =>
      cases heff
      exact h
  | create | removeEntry | beginWait | moveWaiter | moveHello | incrementSequenceNum
  | writeSequenceNum | sendRreq | sendUnicast | sendBroadcast => cases heff

theorem floodReady_apply (event : Event) (o : Op) (n : Node) (hn : FloodReady n)
    (hguard : o.Guard event n) : FloodReady (o.apply n) where
  hops := by
    refine entries_apply _ o n hn.hops ?_ (fun ip f e heff => effect_hopCount n o ip f heff e)
    intro fresh heff
    cases o with
    | create env ip s v h c t =>
        cases heff
        exact hguard.2
    | _ => cases heff
  threads := by
    intro t ht
    rcases apply_threads n o t ht with hold | ⟨dest, -, rfl⟩ | ⟨t₀, -, rreq, ttl, rfl, -, -⟩
    · exact hn.threads t hold
    · trivial
    · -- The guard names the thread and what it was about to send.
      rcases hguard with ⟨-, t₁, ht₁, -, hasks⟩
      exact (asks_withinRing n t₁ rreq ttl t.stage hn ht₁ hasks).2.2.2

theorem floodReady_step (n : Node) (input : Input) (hn : FloodReady n) :
    FloodReady (step n input) :=
  Prog.exec_invariant Op.apply (Op.Guard input.event) FloodReady
    (fun o n hn hguard => floodReady_apply input.event o n hn hguard) input.handler n hn
    (handler_guard n input)

/-- A request passed on has one hop more behind it and one less to go. -/
theorem forwardedRreq_counts (m : RreqHeader) (destination : Option RoutingEntry) :
    (forwardedRreq m destination).hopCount = m.hopCount ∧
      (forwardedRreq m destination).ttl = m.ttl - 1 := by
  unfold forwardedRreq
  cases destination with
  | none => exact ⟨rfl, rfl⟩
  | some e =>
      simp only []
      split
      · exact ⟨rfl, rfl⟩
      · exact ⟨rfl, rfl⟩

/-- The call, if it sends a request, broadcasts one for a reason. -/
def ApiCall.RequestsFrom (event : Event) : ApiCall → Prop
  | sendBroadcast (.rreq m) => RequestFrom event m
  | sendUnicast _ (.rreq _) => False
  | _ => True

theorem calls_requests (event : Event) (o : Op) (n : Node) (hguard : o.Guard event n)
    (hn : FloodReady n) : ∀ c ∈ o.calls n, c.RequestsFrom event := by
  intro c hc
  cases o with
  | sendRreq id rreq ttl stage =>
      rcases List.mem_singleton.mp hc with rfl
      rcases hguard with ⟨hevent, t, ht, -, hasks⟩
      -- What a search thread asks is bounded by the ring it has reached.
      rcases asks_withinRing n t rreq ttl stage hn ht hasks with ⟨hhop, hpos, hle, -⟩
      exact .search id hevent hhop hpos hle
  | sendUnicast dest packet =>
      rcases List.mem_singleton.mp hc with rfl
      cases hguard with
      | ownReply | tableReply | gratuitousReply | passedOn | error | noError | timing => trivial
  | sendBroadcast packet =>
      rcases List.mem_singleton.mp hc with rfl
      cases hguard with
      | request s m hevent httl =>
          rcases forwardedRreq_counts (incrementHopRreq m) (n.getRoutingEntry m.destIp)
            with ⟨hhop, hless⟩
          exact .passedOn s m hevent hhop httl hless
      | hello | error | noError => trivial
  | _ =>
      -- The rest only change the kernel's routes.
      have hroute := calls_isRouteCall n _ id c hc
      cases c with
      | addUnicastRoutingEntry | deleteEntry => trivial
      | sendUnicast | sendBroadcast => cases hroute

/-- The requests a step broadcasts are those of a search thread or the one that has
    arrived, passed on. -/
theorem step_requests (n : Node) (input : Input) (hn : FloodReady n) :
    ∀ c ∈ stepCalls n input, c.RequestsFrom input.event := by
  refine stepCalls_of_ops _ n input ?_
  have hready := Prog.Meets.with_invariant FloodReady
    (fun o n hn hguard => floodReady_apply input.event o n hn hguard) input.handler n hn
    (handler_guard n input)
  exact Prog.Meets.imp (fun o n h => calls_requests input.event o n h.1 h.2) _ n hready

/-! ### The network -/

section Network

variable {ι : Type} [DecidableEq ι]

/-- The requests that arrive are in flight; anything else may happen. -/
def RequestsCarried (net : Network ι) (a : NetInput ι) : Prop :=
  match a.input.event with
  | .control _ (.rreq m) => net.InFlight (.rreq m)
  | _ => True

/-- Any tables with small hop counts, searches that have not begun, and no request
    on its way. -/
structure FloodStart (net : Network ι) : Prop where
  hops : ∀ i, (net i).Entries fun e => e.hopCount.toNat < 256
  threads : ∀ i, ∀ t ∈ (net i).threads, t.stage = .starting
  quiet : ∀ m, ¬ net.InFlight (.rreq m)

/-- After the inputs the request `m` has been broadcast; its search thread sent it
    first with the TTL `T`, and it has been broadcast again by `k` nodes since. -/
inductive Flooded (net₀ : Network ι) : List (NetInput ι) → RreqHeader → Nat → Nat → Prop where
  | originated (inputs : List (NetInput ι)) (a : NetInput ι) (id : Nat) (m : RreqHeader)
      (hevent : a.input.event = .search id)
      (hsent : .sendBroadcast (.rreq m) ∈ stepCalls (run netStep net₀ inputs a.node) a.input) :
      Flooded net₀ (inputs ++ [a]) m m.ttl.toNat 0
  | rebroadcast (inputs : List (NetInput ι)) (a : NetInput ι) (s : U32) (m m' : RreqHeader)
      (T k : Nat) (h : Flooded net₀ inputs m T k) (hevent : a.input.event = .control s (.rreq m))
      (hsent : .sendBroadcast (.rreq m') ∈ stepCalls (run netStep net₀ inputs a.node) a.input) :
      Flooded net₀ (inputs ++ [a]) m' T (k + 1)
  | later (inputs : List (NetInput ι)) (a : NetInput ι) (m : RreqHeader) (T k : Nat)
      (h : Flooded net₀ inputs m T k) : Flooded net₀ (inputs ++ [a]) m T k

/-- The budget of a request that set out with the TTL `T` and was broadcast again
    by `k` nodes. -/
structure WithinBudget (m : RreqHeader) (T k : Nat) : Prop where
  start : 1 ≤ T ∧ T ≤ 35
  ttl : 1 ≤ m.ttl.toNat
  sum : m.hopCount.toNat + m.ttl.toNat = T
  rebroadcasts : m.hopCount.toNat = k ∧ k ≤ T - 1
  /-- The next node's increment does not wrap. -/
  increment : (incrementHopRreq m).hopCount.toNat = m.hopCount.toNat + 1

/-- The route an operation writes from a request is no longer than the diameter,
    and the least lifetime it gives is not negative. -/
def Op.WithinDiameter : Op → Node → Prop
  | reverseRoute env s m new, n =>
    0 ≤ 2 * netTraversalTime - 2 * m.hopCount.toNat * nodeTraversalTime ∧
      ∀ e, n.getRoutingEntry m.srcIp = some e → (new = true ∨ fresherReverse m e = true) →
        1 ≤ (e.reverseRoute env s m new).hopCount.toNat ∧
          (e.reverseRoute env s m new).hopCount.toNat ≤ 35
  | _, _ => True

theorem floodReady_run (net₀ : Network ι) (hstart : FloodStart net₀)
    (inputs : List (NetInput ι)) (i : ι) : FloodReady (run netStep net₀ inputs i) := by
  refine network_invariant (fun _ _ => True) FloodReady i
    (fun net a _ hn _ => floodReady_step (net i) a.input hn) net₀ inputs ?_
    (allSteps_of_forall netStep (fun _ _ => trivial) net₀ inputs)
  refine ⟨hstart.hops i, fun t ht => ?_⟩
  unfold SearchThread.WithinRing
  rw [hstart.threads i t ht]
  trivial

/-- What is counted adds up while the counters stay small. -/
theorem withinBudget_of_sum (m : RreqHeader) (T k : Nat) (hT : T ≤ 35) (httl : 1 ≤ m.ttl.toNat)
    (hsum : m.hopCount.toNat + m.ttl.toNat = T) (hk : m.hopCount.toNat = k) :
    WithinBudget m T k := by
  refine ⟨⟨by omega, hT⟩, httl, hsum, ⟨hk, by omega⟩, ?_⟩
  have hone : (1 : Byte).toNat = 1 := by decide
  simp only [incrementHopRreq, BitVec.toNat_add, hone]
  omega

/-- A request keeps its budget wherever it goes. -/
theorem flooded_withinBudget (net₀ : Network ι) (hstart : FloodStart net₀)
    (inputs : List (NetInput ι)) (m : RreqHeader) (T k : Nat) (h : Flooded net₀ inputs m T k) :
    WithinBudget m T k := by
  induction h with
  | originated inputs a id m hevent hsent =>
      have hfrom : RequestFrom a.input.event m :=
        step_requests _ a.input (floodReady_run net₀ hstart inputs a.node) _ hsent
      cases hfrom with
      | search id' hevent' hhop hpos hle =>
          have hzero : m.hopCount.toNat = 0 := by
            rw [hhop]
            rfl
          exact withinBudget_of_sum m _ 0 hle hpos (by omega) hzero
      | passedOn s m₀ hevent' => exact absurd (hevent.symm.trans hevent') nofun
  | rebroadcast inputs a s m m' T k h hevent hsent ih =>
      have hfrom : RequestFrom a.input.event m' :=
        step_requests _ a.input (floodReady_run net₀ hstart inputs a.node) _ hsent
      cases hfrom with
      | search id hevent' => exact absurd (hevent.symm.trans hevent') nofun
      | passedOn s' m₀ hevent' hhop hpos httl =>
          -- What is passed on is the request followed so far.
          have hsame := hevent.symm.trans hevent'
          simp only [Event.control.injEq, ControlMessage.rreq.injEq] at hsame
          rcases hsame with ⟨-, rfl⟩
          have hone : (1 : BitVec 11).toNat = 1 := by decide
          have hmore : 1 < m.ttl.toNat := Nat.lt_of_not_le hpos
          have hless : m'.ttl.toNat = m.ttl.toNat - 1 := by
            rw [httl, BitVec.toNat_sub_of_le (show (1 : BitVec 11) ≤ m.ttl from hmore.le), hone]
          have hnext : m'.hopCount.toNat = m.hopCount.toNat + 1 := by
            rw [hhop]
            exact ih.increment
          have hsum := ih.sum
          have hk := ih.rebroadcasts.1
          exact withinBudget_of_sum m' T (k + 1) ih.start.2 (by omega) (by omega) (by omega)
  | later inputs a m T k h ih => exact ih

/-- Every request in flight set out from some search thread of the run. -/
theorem flooded_of_inFlight (net₀ : Network ι) (hstart : FloodStart net₀)
    (inputs : List (NetInput ι)) (hlegal : AllSteps netStep RequestsCarried net₀ inputs)
    (m : RreqHeader) (h : (run netStep net₀ inputs).InFlight (.rreq m)) :
    ∃ T k, Flooded net₀ inputs m T k := by
  induction inputs using List.reverseRecOn generalizing m with
  | nil => exact absurd h (hstart.quiet m)
  | append_singleton inputs a ih =>
      rcases (allSteps_append netStep RequestsCarried net₀ inputs [a]).mp hlegal
        with ⟨hbefore, hcarried, -⟩
      rcases h with ⟨i, hi⟩
      rw [run_append, run_cons, run_nil] at hi
      have hlater : (run netStep net₀ inputs).InFlight (.rreq m) →
          ∃ T k, Flooded net₀ (inputs ++ [a]) m T k := by
        intro hold
        rcases ih hbefore m hold with ⟨T, k, hflooded⟩
        exact ⟨T, k, .later inputs a m T k hflooded⟩
      by_cases hnode : i = a.node
      · rw [hnode, netStep_self] at hi
        unfold Node.HasSent at hi
        rw [log_step] at hi
        have hcalls := step_requests _ a.input (floodReady_run net₀ hstart inputs a.node)
        rcases hi with hi | ⟨dest, hi⟩
        · rcases List.mem_append.mp hi with hnew | hold
          · -- The request has just been broadcast, by a search or upon a request in flight.
            have hfrom : RequestFrom a.input.event m := hcalls _ hnew
            cases hfrom with
            | search id hevent => exact ⟨_, _, .originated inputs a id m hevent hnew⟩
            | passedOn s m₀ hevent =>
                unfold RequestsCarried at hcarried
                rw [hevent] at hcarried
                rcases ih hbefore m₀ hcarried with ⟨T, k, hflooded⟩
                exact ⟨T, k + 1, .rebroadcast inputs a s m₀ m T k hflooded hevent hnew⟩
          · exact hlater ⟨a.node, Or.inl hold⟩
        · rcases List.mem_append.mp hi with hnew | hold
          · exact absurd (hcalls _ hnew) id
          · exact hlater ⟨a.node, Or.inr ⟨dest, hold⟩⟩
      · rw [netStep_ne _ a i hnode] at hi
        exact hlater ⟨i, hi⟩

/-- Whatever is written upon a request within its budget is within the diameter. -/
theorem opsMeet_withinDiameter (n : Node) (env : Env) (s : U32) (m : RreqHeader) (T k : Nat)
    (h : WithinBudget m T k) :
    OpsMeet Op.WithinDiameter n { env := env, event := .control s (.rreq m) } := by
  refine Prog.Meets.imp (fun o n hguard => ?_) _ n
    (handler_guard n { env := env, event := .control s (.rreq m) })
  cases o with
  | reverseRoute env' s' m' new =>
      rcases hguard.1 with ⟨m₀, hevent, rfl⟩
      simp only [Event.control.injEq, ControlMessage.rreq.injEq] at hevent
      rcases hevent with ⟨rfl, rfl⟩
      have hincrement := h.increment
      have hsum := h.sum
      have httl := h.ttl
      have hT := h.start.2
      -- The TTL and the hops made add up to what the search began with, 35 at most.
      have hle : (incrementHopRreq m).hopCount.toNat ≤ 35 := by omega
      refine ⟨?_, fun e he htaken => ?_⟩
      · simp only [netTraversalTime, nodeTraversalTime, netDiameter]
        omega
      · rcases reverseRoute_accepted env' s new e _ htaken with ⟨t, ht⟩
        rw [ht, BitVec.toNat_setWidth, Nat.mod_eq_of_lt (by omega)]
        exact ⟨by omega, hle⟩
  | _ => trivial

/-- In every run in which the requests that arrive have been broadcast, every
    request in flight has set out from a search thread and keeps the budget it got
    there, and what a node writes upon its arrival is within the diameter. -/
theorem flooding_keeps_budget (net₀ : Network ι) (hstart : FloodStart net₀)
    (inputs : List (NetInput ι)) (hlegal : AllSteps netStep RequestsCarried net₀ inputs) :
    (∀ m, (run netStep net₀ inputs).InFlight (.rreq m) → ∃ T k, Flooded net₀ inputs m T k) ∧
      (∀ m T k, Flooded net₀ inputs m T k → WithinBudget m T k) ∧
      ∀ i env s m, (run netStep net₀ inputs).InFlight (.rreq m) →
        OpsMeet Op.WithinDiameter (run netStep net₀ inputs i)
          { env := env, event := .control s (.rreq m) } := by
  refine ⟨flooded_of_inFlight net₀ hstart inputs hlegal,
    flooded_withinBudget net₀ hstart inputs, fun i env s m hm => ?_⟩
  rcases flooded_of_inFlight net₀ hstart inputs hlegal m hm with ⟨T, k, hflooded⟩
  exact opsMeet_withinDiameter _ env s m T k
    (flooded_withinBudget net₀ hstart inputs m T k hflooded)

end Network

/-- The first request of the first node's search for 3.0.0.0. -/
def firstRequest : RreqHeader :=
  { generateRreqMessage ((rreqGrat ||| rreqUnknown).setWidth 8) 1 0x03000000 0 0x01000000 1 with
    ttl := 1 }

/-- The first node searches for 3.0.0.0, and its request arrives at the second. -/
def requestAtNeighbour : List (NetInput (Fin 2)) :=
  [⟨0, { env := .clear, event := .outgoing 0x03000000 }⟩,
   ⟨0, { env := .clear, event := .search 1 }⟩,
    ⟨1, receive 0x01000000 (.rreq firstRequest)⟩]

theorem flooding_keeps_budget_neighbour :
    ∃ T k, Flooded (Network.boot 2) requestAtNeighbour firstRequest T k ∧
      WithinBudget firstRequest T k := by
  have hstart : FloodStart (Network.boot 2) :=
    ⟨fun i j e he => absurd he (Node.boot_slots_ne _ _ _ j e),
     fun i t ht => absurd ht List.not_mem_nil,
      fun m => boot_not_inFlight 2 (.rreq m)⟩
  have hlegal : AllSteps netStep RequestsCarried (Network.boot 2) requestAtNeighbour :=
    ⟨trivial, trivial, ⟨0, Or.inl (by decide)⟩, trivial⟩
  rcases flooding_keeps_budget (Network.boot 2) hstart requestAtNeighbour hlegal
    with ⟨hflooded, hbudget, -⟩
  rcases hflooded firstRequest ⟨0, Or.inl (by decide)⟩ with ⟨T, k, h⟩
  exact ⟨T, k, h, hbudget firstRequest T k h⟩

end OpenManet
