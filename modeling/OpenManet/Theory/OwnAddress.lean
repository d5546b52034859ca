import OpenManet.Theory.BestRoute
import OpenManet.Theory.Guards

/-!
# Routes to the Node Itself

A node reaches itself without a route, so its own address should neither be in its
table nor among the addresses it asks the kernel for routes to. The handlers see to
this one by one. The dispatch drops what comes from the own address, so no previous hop
has it. A request checks its originator and a packet to send its destination. A reply
checks nothing: the destination it is about may be the node that receives it.

Such a reply makes a route to the node through the neighbour that sent it. Only a hello
about the own address may do no harm, because it asks for no route, and makes no entry
where the slot is taken by another address.

## Main definitions

* `RoutesToOthers`: The own address is not in the table, and no route to it was asked
  for.
* `RepliesAboutOthers`: A reply is about another address, or does no harm.
* `Op.Spares`: An operation makes no entry for the address and asks for no route to it.

## Theorems

* `apply_spares`: What such operations keep.
* `step_routesToOthers_iff`: A step keeps the own address out exactly if replies do.
* `routes_to_others_iff`: So does a run.
* `not_routes_to_others_ownReply`: A reply about the node itself.
-/

namespace OpenManet

/-- The address is not in the table, and no route to it has been asked for. -/
def Node.LeavesOut (own : U32) (n : Node) : Prop :=
  (n.Entries fun e => e.destIp ≠ own) ∧ ∀ gateway, .addUnicastRoutingEntry own gateway ∉ n.log

/-- The node has no route to itself and has asked for none. -/
def RoutesToOthers (n : Node) : Prop := n.LeavesOut n.ipAddress

/-- A reply from another node is about another address; or it is a hello and finds the
    slot of the own address in use. -/
def RepliesAboutOthers (n : Node) (input : Input) : Prop :=
  match input.event with
  | .control s (.rrep m) => s ≠ n.ipAddress → m.destIp = n.ipAddress →
      m.srcIp = 0 ∧ (n.getRoutingEntry n.ipAddress).isSome = true
  | _ => True

/-- The operation makes no entry for the address and asks for no route to it, other
    than through an entry that is there. -/
def Op.Spares (own : U32) : Op → Node → Prop
  | create _ destIp _ _ _ _ _, n => destIp = own → (n.getRoutingEntry own).isSome = true
  | previousHop _ senderIp _ _, _ => senderIp ≠ own
  | forwardRoute _ _ m _, _ => m.destIp ≠ own
  | _, _ => True

/-! ### The operations -/

/-- A call that asks for no route to the address. -/
def ApiCall.Elsewhere (own : U32) (c : ApiCall) : Prop :=
  ∀ gateway, c ≠ .addUnicastRoutingEntry own gateway

theorem elsewhere_add (own dest gateway : U32) (h : dest ≠ own) :
    (ApiCall.addUnicastRoutingEntry dest gateway).Elsewhere own := by
  intro gateway' heq
  cases heq
  exact h rfl

/-- The calls of an operation that spares the address go elsewhere. -/
theorem calls_elsewhere (own : U32) (n : Node) (hn : n.LeavesOut own) (o : Op)
    (ho : o.Spares own n) : ∀ c ∈ o.calls n, c.Elsewhere own := by
  intro c hc
  cases o with
  | previousHop env s l new =>
      simp only [Op.calls, Node.whenFound] at hc
      split at hc
      · exact absurd hc List.not_mem_nil
      · rw [List.mem_singleton.mp hc]
        exact elsewhere_add own s s ho
  | reverseRoute env s m new =>
      simp only [Op.calls, Node.whenFound] at hc
      split at hc
      · exact absurd hc List.not_mem_nil
      · -- The route asked for is to the address of an entry of the table.
        rename_i e he
        rw [List.mem_singleton.mp hc]
        exact elsewhere_add own e.destIp s (hn.1 _ e he)
  | forwardRoute env s m new =>
      have hadd := elsewhere_add own m.destIp s ho
      simp only [Op.calls, Node.whenFound] at hc
      split at hc
      · exact absurd hc List.not_mem_nil
      · split at hc
        · simp only [List.mem_cons, List.not_mem_nil, or_false, or_self] at hc
          rw [hc]
          exact hadd
        · rw [List.mem_singleton.mp hc]
          exact hadd
  | breakRoute | linkBreak | outgoingBreak | expireRoute =>
      simp only [Op.calls, Node.whenFound] at hc
      split at hc
      · exact absurd hc List.not_mem_nil
      · rw [List.mem_singleton.mp hc]
        exact fun gateway heq => by cases heq
  | sendRreq | sendUnicast | sendBroadcast =>
      rw [List.mem_singleton.mp hc]
      exact fun gateway heq => by cases heq
  | create | hello | searchFound | activate | removeEntry | write | startSearch | beginWait
  | moveWaiter | moveHello | incrementSequenceNum | writeSequenceNum | searchFailed =>
      exact absurd hc List.not_mem_nil

/-- What is in the table after an operation that spares the address. -/
theorem entries_spares (own : U32) (n : Node) (hn : n.Entries fun e => e.destIp ≠ own) (o : Op)
    (ho : o.Spares own n) : (o.apply n).Entries fun e => e.destIp ≠ own := by
  have hupdate : ∀ ip f (e : RoutingEntry), o.effect n = .update ip f → e.destIp ≠ own →
      (f e).destIp ≠ own := by
    intro ip f e heff he
    rw [effect_keeps n o ip f heff e]
    exact he
  by_cases hown : ∃ env s v h c t, o = .create env own s v h c t
  · -- The slot of the address is in use, so nothing is made.
    rcases hown with ⟨env, s, v, h, c, t, rfl⟩
    rcases Option.isSome_iff_exists.mp (ho rfl) with ⟨e, he⟩
    have hsame : (Op.create env own s v h c t).apply n = n := by
      simp only [Op.apply, Node.createOrGetRoutingEntry, he]
    rw [hsame]
    exact hn
  · refine entries_apply _ o n hn (fun e heff hdest => hown ?_) hupdate
    cases o with
    | create env ip s v h c t =>
        cases heff
        cases hdest
        exact ⟨env, s, v, h, c, t, rfl⟩
    | _ => cases heff

theorem apply_spares (own : U32) (o : Op) (n : Node) (hn : n.LeavesOut own)
    (ho : o.Spares own n) : (o.apply n).LeavesOut own := by
  refine ⟨entries_spares own n hn.1 o ho, fun gateway hmem => ?_⟩
  rw [apply_log] at hmem
  rcases List.mem_append.mp hmem with hnew | hold
  · exact calls_elsewhere own n hn o ho _ hnew gateway rfl
  · exact hn.2 gateway hold

/-! ### The handlers -/

theorem spares_of_follows (own : U32) (o : Op) (n : Node) (h : o.FollowsRoute) :
    o.Spares own n := by
  cases o with
  | activate | write | writeSequenceNum | sendUnicast | sendBroadcast => trivial
  | _ => exact absurd h id

section Handlers

variable {own : U32}

/-- The previous hop is another node: the dispatch has seen to it. -/
theorem previousHopSection_spares (env : Env) (s l : U32) (next : Handler) (hs : s ≠ own) (n : Node)
    (hip : n.ipAddress = own)
    (hnext : ∀ n', n'.ipAddress = own → next.Meets Op.apply (Op.Spares own) n') :
    (previousHopSection env s l next).Meets Op.apply (Op.Spares own) n :=
  ⟨fun h => absurd h hs, hs, hnext _ ((afterPreviousHop_ipAddress env s l n).trans hip)⟩

theorem recvRreq_spares (env : Env) (s : U32) (m : RreqHeader) (hs : s ≠ own) (n : Node)
    (hip : n.ipAddress = own) : (recvRreq env s m).Meets Op.apply (Op.Spares own) n := by
  refine previousHopSection_spares env s _ _ hs n hip (fun n' hip' => ?_)
  simp only [Prog.Meets]
  split
  · trivial
  · -- The originator is another node by the test just made.
    rename_i horig
    rw [hip'] at horig
    split
    · trivial
    · exact ⟨fun h => absurd h horig, trivial,
        Prog.Meets.imp (fun o n ho => spares_of_follows own o n ho) _ _
          (afterReverseRoute_follows env s (incrementHopRreq m) _ _)⟩

theorem recvRrep_spares (env : Env) (s : U32) (m : RrepHeader) (hs : s ≠ own) (n : Node)
    (hip : n.ipAddress = own)
    (hdest : m.destIp = own → m.srcIp = 0 ∧ (n.getRoutingEntry own).isSome = true) :
    (recvRrep env s m).Meets Op.apply (Op.Spares own) n := by
  have hrest : ∀ n', n'.ipAddress = own →
      (n'.getRoutingEntry own).isSome = (n.getRoutingEntry own).isSome →
      Prog.Meets Op.apply (Op.Spares own)
        (if m.srcIp = 0 then recvHello env s (incrementHopRrep m)
          else previousHopSection env s m.destIp
            (installForwardRoute env s (incrementHopRrep m))) n' := by
    intro n' hip' hsome
    split
    · exact ⟨fun h => hsome.trans (hdest h).2, trivial, trivial⟩
    · -- Any other reply is about another address.
      rename_i hroute
      have hother : m.destIp ≠ own := fun h => hroute (hdest h).1
      refine previousHopSection_spares env s _ _ hs n' hip' (fun n' _ => ?_)
      exact ⟨fun h => absurd h hother, hother,
        Prog.Meets.imp (fun o n ho => spares_of_follows own o n ho) _ _
          (afterForwardRoute_follows (incrementHopRrep m) _)⟩
  simp only [recvRrep, publishFound, Prog.Meets]
  split
  · -- The outcome of a search is written to an entry that is there.
    refine ⟨trivial, hrest _ ((apply_ipAddress n _).trans hip) ?_⟩
    rw [Node.getRoutingEntry_eq, apply_slots, ← Node.getRoutingEntry_eq]
    simp only [Op.effect, Effect.slot]
    split
    · exact Option.isSome_map
    · rfl
  · exact hrest n hip rfl

theorem startOrJoin_spares (dest : U32) (new : Bool) (n n' : Node) :
    (startOrJoin dest new n).Meets Op.apply (Op.Spares own) n' := by
  unfold startOrJoin
  split
  · trivial
  · simp only []
    split
    · trivial
    · split
      · exact ⟨trivial, trivial⟩
      · split
        · exact ⟨trivial, trivial, trivial⟩
        · exact ⟨trivial, trivial, trivial, trivial⟩

theorem sendRreq_spares (env : Env) (dest : U32) (hdest : dest ≠ own) (n : Node) :
    (sendRreq env dest).Meets Op.apply (Op.Spares own) n :=
  ⟨fun h => absurd h hdest, startOrJoin_spares dest _ _ _⟩

theorem outgoingMessage_spares (env : Env) (dest : U32) (n : Node) (hip : n.ipAddress = own) :
    (outgoingMessage env dest).Meets Op.apply (Op.Spares own) n := by
  simp only [outgoingMessage, Prog.Meets]
  split
  · trivial
  · -- A packet for the node itself has left the handler before.
    rename_i hdest
    rw [hip] at hdest
    have hother := (not_or.mp hdest).2
    split
    · exact sendRreq_spares env dest hother n
    · split
      · exact ⟨trivial, trivial⟩
      · split
        · trivial
        · split
          · exact ⟨trivial, sendRreq_spares env dest hother _⟩
          · exact sendRreq_spares env dest hother n

/-- An event whose handler makes no entries spares every address. -/
theorem spares_of_guard (event : Event) (hevent : event.installs = false) (o : Op) (n : Node)
    (h : o.Guard event n) : o.Spares own n := by
  cases o with
  | create => exact absurd (h.1.symm.trans hevent) (by decide)
  | previousHop => rcases h.1 with ⟨_, rfl, -⟩ | ⟨_, rfl, -⟩ <;> cases hevent
  | forwardRoute =>
      rcases h.1 with ⟨_, rfl, -⟩
      cases hevent
  | _ => trivial

end Handlers

/-- A step spares the own address if the reply it receives, if any, does. -/
theorem step_spares (n : Node) (input : Input) (h : RepliesAboutOthers n input) :
    OpsMeet (Op.Spares n.ipAddress) n input := by
  have hguard := handler_guard n input
  rcases input with ⟨env, event⟩
  cases event with
  | control s message =>
      refine incomingControlMessage_meets n env s _ message (fun hs => ?_)
      cases message with
      | rreq m => exact recvRreq_spares env s m hs n rfl
      | rrep m => exact recvRrep_spares env s m hs n rfl (h hs)
      | rerr header pairs =>
          simp only [Input.handler, incomingControlMessage, Handler.Guarded, Prog.Meets,
            if_neg hs] at hguard
          exact Prog.Meets.imp (fun o n ho => spares_of_guard _ rfl o n ho) _ n hguard
  | outgoing dest => exact outgoingMessage_spares env dest n rfl
  | data | forwarded | search | wait | expire | rreqIdExpire | hello =>
      exact Prog.Meets.imp (fun o n ho => spares_of_guard _ rfl o n ho) _ n hguard

/-! ### A reply about the node itself -/

/-- The record of calls only grows. -/
theorem mem_log_exec (h : Handler) (n : Node) (c : ApiCall) (hc : c ∈ n.log) :
    c ∈ (h.exec Op.apply n).1.log := by
  rcases exec_calls (fun _ => True) h n
    (Prog.meets_of_forall Op.apply (fun _ _ _ _ => trivial) h n) with ⟨calls, hlog, -⟩
  rw [hlog]
  exact List.mem_append_right _ hc

/-- Such a reply asks for a route to the address it is about. -/
theorem installForwardRoute_adds (env : Env) (s : U32) (m : RrepHeader) (n : Node) :
    .addUnicastRoutingEntry m.destIp s ∈ ((installForwardRoute env s m).exec Op.apply n).1.log := by
  let n' := (Op.create env m.destIp m.destSeq .seqValid s (m.hopCount.setWidth 32)
    m.lifetime).apply n
  have hexec : (installForwardRoute env s m).exec Op.apply n =
      (afterForwardRoute m).exec Op.apply
        ((Op.forwardRoute env s m (n.isNew m.destIp)).apply n') := rfl
  rw [hexec]
  refine mem_log_exec _ _ _ ?_
  rcases Node.createOrGet_found env m.destIp m.destSeq .seqValid s (m.hopCount.setWidth 32)
    m.lifetime n with ⟨e, he⟩
  have hfound : n'.getRoutingEntry m.destIp = some e := he
  rw [apply_log, Op.calls, Node.whenFound, hfound]
  refine List.mem_append_left _ ?_
  simp only []
  split <;> exact List.mem_cons_self

theorem step_ownReply (n : Node) (env : Env) (s : U32) (m : RrepHeader) (hs : s ≠ n.ipAddress)
    (hdest : m.destIp = n.ipAddress)
    (hn : RoutesToOthers (step n { env := env, event := .control s (.rrep m) })) :
    m.srcIp = 0 ∧ (n.getRoutingEntry n.ipAddress).isSome = true := by
  unfold RoutesToOthers at hn
  rw [step_ipAddress, step_rrep, if_neg hs] at hn
  by_cases hhello : m.srcIp = 0
  · refine ⟨hhello, ?_⟩
    cases hslot : n.getRoutingEntry n.ipAddress with
    | some e => rfl
    | none =>
        -- A hello that finds no entry makes one for the address.
        have hfree : (afterPublish m n).getRoutingEntry m.destIp = none := by
          have hnew := afterPublish_isNew m n m.destIp
          unfold Node.isNew at hnew
          rw [hdest, hslot, Option.isNone_none, Option.isNone_iff_eq_none] at hnew
          rw [hdest]
          exact hnew
        have hmade := recvHello_entry env s (incrementHopRrep m) (afterPublish m n)
          (incrementHopRrep m).destIp
        rw [if_pos rfl, ← recvRrep_hello env s m n hhello] at hmade
        refine absurd ?_ (hn.1 _ _ hmade)
        rw [hello_destIp, forwardTarget, show (incrementHopRrep m).destIp = m.destIp from rfl,
          hfree]
        exact hdest
  · refine absurd ?_ (hn.2 s)
    rw [recvRrep_route env s m n hhello, ← hdest]
    exact installForwardRoute_adds env s (incrementHopRrep m) _

/-! ### The runs -/

theorem step_routesToOthers_iff (n : Node) (input : Input) (hn : RoutesToOthers n) :
    RoutesToOthers (step n input) ↔ RepliesAboutOthers n input := by
  constructor
  · intro hstep
    unfold RepliesAboutOthers
    split
    · rename_i s m hevent
      intro hs hdest
      rcases input with ⟨env, event⟩
      cases hevent
      exact step_ownReply n env s m hs hdest hstep
    · trivial
  · intro hreply
    unfold RoutesToOthers
    rw [step_ipAddress]
    exact Prog.exec_invariant Op.apply (Op.Spares n.ipAddress) (Node.LeavesOut n.ipAddress)
      (fun o n' hn' ho => apply_spares _ o n' hn' ho) input.handler n hn
      (step_spares n input hreply)

/-- In every run of a node, its own address stays out of its table and of the routes it
    asks for exactly if no reply from another node is about it, but for hellos that find
    its slot in use. -/
theorem routes_to_others_iff (ip bcast : U32) (hello : Nat → Byte) (inputs : List Input) :
    AllSteps step (fun n input => RoutesToOthers (step n input)) (Node.boot ip bcast hello) inputs ↔
      AllSteps step RepliesAboutOthers (Node.boot ip bcast hello) inputs :=
  allSteps_congr step _ RepliesAboutOthers RoutesToOthers step_routesToOthers_iff
    (fun _ _ _ hkept => hkept) _ inputs
    ⟨fun i e he => absurd he (Node.boot_slots_ne ip bcast hello i e), fun _ => List.not_mem_nil⟩

/-- A reply about node 1.0.0.0 comes back to it. -/
def ownReply : List Input := [receive 0x02000000 (replyAfter 1 0x01000000 5 0x03000000)]

/-- The node then has a route to itself through 2.0.0.0 and has asked the kernel for
    one. -/
theorem not_routes_to_others_ownReply :
    ¬ ∀ (ip bcast : U32) (hello : Nat → Byte) (inputs : List Input),
      (∀ input ∈ inputs, ∀ s message, input.event = .control s message → s ≠ ip) →
      (∀ i e, (run step (Node.boot ip bcast hello) inputs).routes.slots i = some e →
        e.destIp ≠ ip) ∧
      ∀ gateway, .addUnicastRoutingEntry ip gateway ∉
        (run step (Node.boot ip bcast hello) inputs).log := by
  intro h
  have hothers : ∀ input ∈ ownReply, ∀ s message, input.event = .control s message →
      s ≠ 0x01000000 := by
    intro input hinput s message hevent
    rw [List.mem_singleton.mp hinput] at hevent
    cases hevent
    decide
  have hrun := h 0x01000000 0xFF000000 (fun _ => 0) ownReply hothers
  exact hrun.2 0x02000000 (by decide)

end OpenManet
