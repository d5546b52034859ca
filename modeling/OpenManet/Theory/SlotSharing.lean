import OpenManet.Theory.Guards

/-!
# Destinations That Share a Slot

Every handler reaches an entry through the array, which is indexed by the top octet of
an address, and none looks at the address of the entry it gets back. The table is
meant for networks whose addresses differ in that octet; what holds for all addresses
is that a message works on the slots of the addresses it names and of its sender, and
that the entry found for an address is that of an address with the same top octet
that the run has named.

So destinations with different top octets share nothing, and where a run names one
address for each octet the entry found for an address is its own.

## Main definitions

* `ControlMessage.addresses`, `Event.names`: The addresses a message and an event name.
* `Op.WritesFor`: An operation works on the slots of these addresses only.

## Theorems

* `control_writesFor`, `outgoing_writesFor`: Messages and packets write for the
  addresses they name.
* `slots_isolated`: In every run, which entry is found and which ones a message changes.
* `not_isolated_sharedOctet`: Two addresses with one top octet.
-/

namespace OpenManet

/-- The addresses a message is about. -/
def ControlMessage.addresses : ControlMessage → List U32
  | rreq m => [m.srcIp, m.destIp]
  | rrep m => [m.srcIp, m.destIp]
  | rerr header destPairs => (rerrPairs header.destCount destPairs).map Prod.fst

/-- The addresses an event can make entries for: those of a message and its sender, or
    the destination of an outgoing packet. -/
def Event.names : Event → List U32
  | control s message => s :: message.addresses
  | outgoing dest => [dest]
  | _ => []

/-- The operation makes, writes and removes entries for these addresses only. -/
def Op.WritesFor (names : List U32) (o : Op) (n : Node) : Prop :=
  match o.effect n with
  | .keep => True
  | .create e => e.destIp ∈ names
  | .remove ip => ip ∈ names
  | .update ip _ => ip ∈ names

/-! ### The handlers -/

section Handlers

variable {names : List U32}

theorem previousHopSection_writesFor (env : Env) (s l : U32) (next : Handler) (hs : s ∈ names)
    (hnext : ∀ n, next.Meets Op.apply (Op.WritesFor names) n) (n : Node) :
    (previousHopSection env s l next).Meets Op.apply (Op.WritesFor names) n :=
  ⟨hs, hs, hnext _⟩

theorem sendRrepIntermediate_writesFor (env : Env) (m : RreqHeader) (s : U32)
    (horig : m.srcIp ∈ names) (hdest : m.destIp ∈ names) (n : Node) :
    (sendRrepIntermediate env m s acceptPacket).Meets Op.apply (Op.WritesFor names) n := by
  refine ⟨hdest, ?_⟩
  simp only [Prog.Meets]
  split
  · trivial
  · refine ⟨trivial, horig, ?_⟩
    split
    · exact ⟨trivial, trivial⟩
    · trivial

theorem afterReverseRoute_writesFor (env : Env) (s : U32) (m : RreqHeader)
    (horig : m.srcIp ∈ names) (hdest : m.destIp ∈ names) (n n' : Node) :
    (afterReverseRoute env s m n).Meets Op.apply (Op.WritesFor names) n' := by
  unfold afterReverseRoute
  split
  · exact ⟨horig, trivial, trivial, trivial⟩
  · -- It is not the destination: it answers, stops or passes the request on.
    simp only [answerOrForward, Prog.Meets]
    split
    · exact sendRrepIntermediate_writesFor env m s horig hdest n'
    · split
      · trivial
      · exact ⟨trivial, trivial⟩

theorem recvRreq_writesFor (env : Env) (s : U32) (m : RreqHeader) (hs : s ∈ names)
    (horig : m.srcIp ∈ names) (hdest : m.destIp ∈ names) (n : Node) :
    (recvRreq env s m).Meets Op.apply (Op.WritesFor names) n := by
  refine previousHopSection_writesFor env s _ _ hs (fun n => ?_) n
  simp only [Prog.Meets]
  split
  · trivial
  · split
    · trivial
    · exact ⟨horig, horig,
        afterReverseRoute_writesFor env s (incrementHopRreq m) horig hdest _ _⟩

theorem afterForwardRoute_writesFor (m : RrepHeader) (horig : m.srcIp ∈ names)
    (hdest : m.destIp ∈ names) (n : Node) :
    (afterForwardRoute m).Meets Op.apply (Op.WritesFor names) n := by
  refine ⟨hdest, ?_⟩
  simp only []
  split
  · simp only [forwardRrep, Prog.Meets]
    split
    · exact ⟨horig, horig, hdest, trivial, trivial⟩
    · trivial
  · trivial

theorem recvRrep_writesFor (env : Env) (s : U32) (m : RrepHeader) (hs : s ∈ names)
    (horig : m.srcIp ∈ names) (hdest : m.destIp ∈ names) (n : Node) :
    (recvRrep env s m).Meets Op.apply (Op.WritesFor names) n := by
  -- Whether the outcome of a search is published makes no difference to what follows.
  have hrest : ∀ n', Prog.Meets Op.apply (Op.WritesFor names)
      (if m.srcIp = 0 then recvHello env s (incrementHopRrep m)
        else previousHopSection env s m.destIp
          (installForwardRoute env s (incrementHopRrep m))) n' := by
    intro n'
    split
    · exact ⟨hdest, hdest, trivial⟩
    · refine previousHopSection_writesFor env s m.destIp
        (installForwardRoute env s (incrementHopRrep m)) hs (fun n => ?_) n'
      exact ⟨hdest, hdest, afterForwardRoute_writesFor (incrementHopRrep m) horig hdest _⟩
  simp only [recvRrep, publishFound, Prog.Meets]
  split
  · exact ⟨hdest, hrest _⟩
  · exact hrest n

theorem send_writesFor (target : RerrTarget) (packet : Packet) (n : Node) :
    (target.send packet).WritesFor names n := by
  unfold RerrTarget.send
  split <;> trivial

theorem rerrLoop_writesFor (env : Env) (s : U32) (pairs : List (U32 × U32))
    (hpairs : ∀ p ∈ pairs, p.1 ∈ names) (l : RerrLocals) (n : Node) :
    (rerrLoop env s pairs l).Meets Op.apply (Op.WritesFor names) n := by
  induction pairs generalizing l n with
  | nil =>
      unfold rerrLoop
      split
      · trivial
      · exact ⟨send_writesFor _ _ _, trivial⟩
  | cons pair rest ih =>
      have hrest := ih (fun p hp => hpairs p (List.mem_cons_of_mem _ hp))
      simp only [rerrLoop, Prog.Meets]
      split
      · exact hrest l n
      · split
        · exact ⟨hpairs pair List.mem_cons_self, hrest _ _⟩
        · exact hrest l n

theorem startOrJoin_writesFor (dest : U32) (hdest : dest ∈ names) (new : Bool) (n n' : Node) :
    (startOrJoin dest new n).Meets Op.apply (Op.WritesFor names) n' := by
  unfold startOrJoin
  split
  · trivial
  · simp only []
    split
    · trivial
    · split
      · exact ⟨trivial, trivial⟩
      · split
        · exact ⟨hdest, trivial, trivial⟩
        · exact ⟨hdest, hdest, trivial, trivial⟩

theorem sendRreq_writesFor (env : Env) (dest : U32) (hdest : dest ∈ names) (n : Node) :
    (sendRreq env dest).Meets Op.apply (Op.WritesFor names) n :=
  ⟨hdest, startOrJoin_writesFor dest hdest _ _ _⟩

end Handlers

/-- A message writes for its sender and the addresses it names. -/
theorem control_writesFor (n : Node) (env : Env) (s : U32) (message : ControlMessage) :
    OpsMeet (Op.WritesFor (Event.control s message).names) n
      { env := env, event := .control s message } := by
  refine incomingControlMessage_meets n env s _ message (fun _ => ?_)
  cases message with
  | rreq m =>
      exact recvRreq_writesFor env s m List.mem_cons_self
        (List.mem_cons_of_mem _ List.mem_cons_self)
        (List.mem_cons_of_mem _ (List.mem_cons_of_mem _ List.mem_cons_self)) n
  | rrep m =>
      exact recvRrep_writesFor env s m List.mem_cons_self
        (List.mem_cons_of_mem _ List.mem_cons_self)
        (List.mem_cons_of_mem _ (List.mem_cons_of_mem _ List.mem_cons_self)) n
  | rerr header destPairs =>
      exact rerrLoop_writesFor env s _
        (fun p hp => List.mem_cons_of_mem _ (List.mem_map_of_mem hp)) _ n

/-- A packet to send writes for its destination. -/
theorem outgoing_writesFor (n : Node) (env : Env) (dest : U32) :
    OpsMeet (Op.WritesFor (Event.outgoing dest).names) n
      { env := env, event := .outgoing dest } := by
  have hdest : dest ∈ (Event.outgoing dest).names := List.mem_cons_self
  simp only [OpsMeet, Input.handler, outgoingMessage, Prog.Meets]
  split
  · trivial
  · split
    · exact sendRreq_writesFor env dest hdest n
    · split
      · exact ⟨hdest, trivial⟩
      · split
        · trivial
        · split
          · exact ⟨hdest, sendRreq_writesFor env dest hdest _⟩
          · exact sendRreq_writesFor env dest hdest n

/-! ### What is changed and what is found -/

/-- The slots of other addresses keep what they hold. -/
theorem slot_of_writesFor (names : List U32) (n : Node) (o : Op) (h : o.WritesFor names n)
    (i : Fin 256) (hi : ∀ ip ∈ names, slotOf ip ≠ i) :
    (o.apply n).routes.slots i = n.routes.slots i := by
  rw [apply_slots]
  unfold Op.WritesFor at h
  cases heff : o.effect n with
  | keep => rfl
  | create e =>
      rw [heff] at h
      exact if_neg (Ne.symm (hi _ h))
  | remove ip =>
      rw [heff] at h
      exact if_neg (Ne.symm (hi _ h))
  | update ip f =>
      rw [heff] at h
      exact if_neg (Ne.symm (hi _ h))

theorem step_slot (n : Node) (env : Env) (s : U32) (message : ControlMessage) (i : Fin 256)
    (hi : ∀ ip ∈ (Event.control s message).names, slotOf ip ≠ i) :
    (step n { env := env, event := .control s message }).routes.slots i = n.routes.slots i :=
  Prog.exec_relation Op.apply (Op.WritesFor (Event.control s message).names)
    (fun n n' => n'.routes.slots i = n.routes.slots i) (fun _ => rfl)
    (fun _ _ _ hab hbc => hbc.trans hab)
    (fun o n ho => slot_of_writesFor _ n o ho i hi) _ n (control_writesFor n env s message)

/-- Entries are made for addresses the event names. -/
theorem creates_named (n : Node) (input : Input) :
    OpsMeet (fun o n => ∀ e, o.effect n = .create e → e.destIp ∈ input.event.names) n input := by
  have hnamed : ∀ (names : List U32) (o : Op) (n : Node), o.WritesFor names n →
      ∀ e, o.effect n = .create e → e.destIp ∈ names := by
    intro names o n h e heff
    unfold Op.WritesFor at h
    rw [heff] at h
    exact h
  have hguard := handler_guard n input
  rcases input with ⟨env, event⟩
  cases event with
  | control s message =>
      exact Prog.Meets.imp (hnamed _) _ n (control_writesFor n env s message)
  | outgoing dest => exact Prog.Meets.imp (hnamed _) _ n (outgoing_writesFor n env dest)
  | data | forwarded | search | wait | expire | rreqIdExpire | hello =>
      -- The guard of an operation that makes an entry says the event is another one.
      refine Prog.Meets.imp (fun o n ho e heff => ?_) _ n hguard
      cases o with
      | create => exact absurd ho.1 Bool.false_ne_true
      | _ => cases heff

theorem step_named (names : List U32) (n : Node) (input : Input)
    (hn : n.Entries fun e => e.destIp ∈ names) :
    (step n input).Entries fun e => e.destIp ∈ names ++ input.event.names :=
  Prog.exec_invariant Op.apply
    (fun o n => ∀ e, o.effect n = .create e → e.destIp ∈ input.event.names)
    (Node.Entries fun e => e.destIp ∈ names ++ input.event.names)
    (fun o n hn ho => entries_apply _ o n hn
      (fun e heff => List.mem_append_right _ (ho e heff))
      (fun ip f e heff he => (effect_keeps n o ip f heff e).symm ▸ he))
    input.handler n (fun i e he => List.mem_append_left _ (hn i e he)) (creates_named n input)

/-- Every entry of a run is that of an address the run has named. -/
theorem run_named (names : List U32) (n : Node) (inputs : List Input)
    (hn : n.Entries fun e => e.destIp ∈ names) :
    (run step n inputs).Entries fun e =>
      e.destIp ∈ names ++ inputs.flatMap (fun input => input.event.names) := by
  induction inputs generalizing names n with
  | nil =>
      rw [List.flatMap_nil, List.append_nil]
      exact hn
  | cons input rest ih =>
      rw [List.flatMap_cons, ← List.append_assoc]
      exact ih _ _ (step_named names n input hn)

/-- In every run and for every address, the entry found is that of an address with the
    same top octet that the run has named, and a message leaves every entry whose top
    octet is neither that of its sender nor that of an address it names. -/
theorem slots_isolated (ip bcast : U32) (hello : Nat → Byte) (inputs : List Input) :
    let n := run step (Node.boot ip bcast hello) inputs
    (∀ a e, n.getRoutingEntry a = some e →
      slotOf e.destIp = slotOf a ∧ ∃ input ∈ inputs, e.destIp ∈ input.event.names) ∧
    ∀ env s message i e, n.routes.slots i = some e →
      (∀ a ∈ (Event.control s message).names, slotOf a ≠ slotOf e.destIp) →
      (step n { env := env, event := .control s message }).routes.slots i = some e := by
  have hnamed := run_named [] (Node.boot ip bcast hello) inputs
    (fun i e he => absurd he (Node.boot_slots_ne ip bcast hello i e))
  generalize run step (Node.boot ip bcast hello) inputs = n at hnamed
  constructor
  · intro a e he
    exact ⟨n.routes.keyed _ e he, List.mem_flatMap.mp (hnamed _ e he)⟩
  · intro env s message i e he hother
    rw [n.routes.keyed i e he] at hother
    rw [step_slot n env s message i hother, he]

/-- A node with a route to 3.0.0.0. -/
def oneRoute : List Input := [receive 0x02000000 (replyAfter 1 0x03000000 5 0x01000000)]

/-- The entry of 3.0.0.0 is found for 3.0.0.1 as well, and a reply about the latter
    writes to it. -/
theorem not_isolated_sharedOctet :
    (¬ ∀ (ip bcast : U32) (hello : Nat → Byte) (inputs : List Input) (a : U32) (e : RoutingEntry),
      (run step (Node.boot ip bcast hello) inputs).getRoutingEntry a = some e → e.destIp = a) ∧
    ¬ ∀ (ip bcast : U32) (hello : Nat → Byte) (inputs : List Input) (env : Env) (s : U32)
        (message : ControlMessage) (i : Fin 256) (e : RoutingEntry),
      (run step (Node.boot ip bcast hello) inputs).routes.slots i = some e →
      e.destIp ∉ (Event.control s message).names →
      (step (run step (Node.boot ip bcast hello) inputs)
        { env := env, event := .control s message }).routes.slots i = some e := by
  constructor
  · intro h
    have hown := h 0x01000000 0xFF000000 (fun _ => 0) oneRoute 0x03000001 _ rfl
    exact absurd hown (by decide)
  · intro h
    have hsame := h 0x01000000 0xFF000000 (fun _ => 0) oneRoute .clear 0x04000000
      (replyAfter 1 0x03000001 7 0x01000000) 3 _ rfl (by decide)
    have hhop := congrArg (Option.map RoutingEntry.nextHop) hsame
    exact absurd hhop (by decide)

end OpenManet
