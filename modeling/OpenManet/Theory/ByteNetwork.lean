import OpenManet.Core.Payload
import OpenManet.Theory.SentErrors

/-!
# A Network That Exchanges Bytes

`Core.Network` delivers messages. What the nodes really exchange is bytes: a packet is
sent as the bytes of its header and what follows it, and the receiver casts the bytes it
gets, dispatching on the fourth of them.

As long as what arrives is what has been sent, the two are the same. A node sends no
packet whose type byte is not that of its kind, so what is cast at the other end is the
message that was meant; of what a RERR is followed by, the words sent are read back. A
run of the network that exchanges bytes is therefore a run of the network that delivers
messages, and everything said of the one holds of the other.

## Main definitions

* `Packet.WellTyped`, `Node.WellTyped`: The types are those of the kinds.
* `RawNetInput`, `rawNetStep`: The network that exchanges bytes.
* `RawCarried`: What arrives has been sent.

## Theorems

* `handler_errorTyped`: A RERR is sent under its type.
* `wellTyped_step`: A node that hears well-typed messages sends well-typed packets.
* `read_carries`: The bytes of a packet are read as what it carries.
* `bytes_refine`: The network that exchanges bytes refines the other one.
-/

namespace OpenManet

/-- The type is that of the kind. -/
def Packet.WellTyped : Packet → Prop
  | rreq m => m.type = rreqType
  | rrep m _ => m.type = rrepType
  | rerr m _ => m.type = rerrType
  | null _ | timing => True

def ControlMessage.WellTyped : ControlMessage → Prop
  | rreq m => m.type = rreqType
  | rrep m => m.type = rrepType
  | rerr m _ => m.type = rerrType

/-- A message that arrives has the type of its kind. -/
def Event.WellTyped : Event → Prop
  | control _ message => message.WellTyped
  | _ => True

/-- The request a thread has made has its type. -/
def SearchThread.WellTyped (t : SearchThread) : Prop :=
  match t.stage with
  | .starting => True
  | .ring rreq _ | .retry rreq _ => rreq.type = rreqType

/-- Everything sent and about to be sent has the type of its kind. -/
structure Node.WellTyped (n : Node) : Prop where
  sent : ∀ c ∈ n.log, ∀ p, c.packet = some p → p.WellTyped
  threads : ∀ t ∈ n.threads, t.WellTyped

/-! ### The types of errors -/

/-- A RERR is sent under its type. -/
def Op.ErrorTyped : Op → Prop
  | sendUnicast _ (.rerr header _) | sendBroadcast (.rerr header _) => header.type = rerrType
  | _ => True

/-- Whatever happens to a node, a RERR is sent under its type. -/
theorem handler_errorTyped (n : Node) (input : Input) :
    input.handler.Meets Op.apply (fun o _ => o.ErrorTyped) n := by
  have hpassed : ErrorsPassedOn fun header _ => header.type = rerrType := by
    intro l header words hpacket
    rw [(rerrPacket_words l header words hpacket).1]
    rfl
  have hown : ErrorsOwn fun header _ => header.type = rerrType := by
    refine ⟨fun _ _ => rfl, fun env l header words hpacket => ?_⟩
    rw [(breakPacket_words env l header words hpacket).1]
    rfl
  refine Prog.Meets.imp (fun o n hmeets => ?_) _ n
    (handler_errorMeets n input (fun _ _ _ _ => hpassed) (fun _ _ _ => hown))
  cases o with
  | sendUnicast dest packet => cases packet <;> exact hmeets
  | sendBroadcast packet => cases packet <;> exact hmeets
  | _ => trivial

/-! ### The types of all packets -/

theorem forwardedRreq_type (m : RreqHeader) (destination : Option RoutingEntry) :
    (forwardedRreq m destination).type = m.type := by
  unfold forwardedRreq
  cases destination with
  | none => rfl
  | some e =>
      simp only []
      split <;> rfl

/-- What a thread is about to ask has its type. -/
theorem asks_wellTyped (n : Node) (t : SearchThread) (ht : t.WellTyped) (rreq : RreqHeader)
    (ttl : BitVec 11) (stage : SearchStage) (h : t.Asks n rreq ttl stage) :
    rreq.type = rreqType ∧ { t with stage := stage }.WellTyped := by
  unfold SearchThread.WellTyped at ht
  cases h with
  | ring ttl hle hstage =>
      have htype : rreq.type = rreqType := by
        rcases hstage with hstage | ⟨-, e, -, rfl, -⟩
        · rw [hstage] at ht
          exact ht
        · rfl
      exact ⟨htype, htype⟩
  | retry i hstage =>
      have htype : rreq.type = rreqType := by
        rcases hstage with hstage | ⟨ttl, hstage⟩ | ⟨-, e, -, rfl⟩
        · rw [hstage] at ht
          exact ht
        · rw [hstage] at ht
          exact ht
        · rfl
      exact ⟨htype, htype⟩

/-- The packets an operation sends upon a well-typed message have their types. -/
theorem calls_wellTyped (event : Event) (hevent : event.WellTyped) (o : Op) (n : Node)
    (hn : n.WellTyped) (hguard : o.Guard event n) (herror : o.ErrorTyped) :
    ∀ c ∈ o.calls n, ∀ p, c.packet = some p → p.WellTyped := by
  intro c hc p hp
  cases o with
  | sendRreq id rreq ttl stage =>
      rcases List.mem_singleton.mp hc with rfl
      cases hp
      rcases hguard with ⟨-, t, ht, -, hasks⟩
      exact (asks_wellTyped n t (hn.threads t ht) rreq ttl stage hasks).1
  | sendUnicast dest packet =>
      rcases List.mem_singleton.mp hc with rfl
      cases hp
      cases hguard with
      | ownReply | tableReply | gratuitousReply => rfl
      | passedOn s m hrrep =>
          rw [hrrep] at hevent
          exact hevent
      | error header words => exact herror
      | noError | timing => trivial
  | sendBroadcast packet =>
      rcases List.mem_singleton.mp hc with rfl
      cases hp
      cases hguard with
      | request s m hrreq =>
          rw [hrreq] at hevent
          exact (forwardedRreq_type _ _).trans hevent
      | hello => rfl
      | error header words => exact herror
      | noError => trivial
  | _ =>
      have hroute := calls_isRouteCall n _ id c hc
      rw [packet_of_isRouteCall c hroute] at hp
      cases hp

theorem wellTyped_apply (event : Event) (hevent : event.WellTyped) (o : Op) (n : Node)
    (hn : n.WellTyped) (hguard : o.Guard event n) (herror : o.ErrorTyped) :
    (o.apply n).WellTyped where
  sent c hc p hp := by
    rw [apply_log] at hc
    rcases List.mem_append.mp hc with hnew | hold
    · exact calls_wellTyped event hevent o n hn hguard herror c hnew p hp
    · exact hn.sent c hold p hp
  threads t ht := by
    rcases apply_threads n o t ht with hold | ⟨dest, -, rfl⟩ | ⟨t₀, -, rreq, ttl, rfl, -, -⟩
    · exact hn.threads t hold
    · trivial
    · rcases hguard with ⟨-, t₁, ht₁, -, hasks⟩
      exact (asks_wellTyped n t₁ (hn.threads t₁ ht₁) rreq ttl t.stage hasks).2

/-- A node that hears well-typed messages sends well-typed packets. -/
theorem wellTyped_step (n : Node) (input : Input) (hn : n.WellTyped)
    (hevent : input.event.WellTyped) : (step n input).WellTyped :=
  Prog.exec_invariant Op.apply (fun o n => o.Guard input.event n ∧ o.ErrorTyped) Node.WellTyped
    (fun o n hn hok => wellTyped_apply input.event hevent o n hn hok.1 hok.2) input.handler n hn
    (Prog.Meets.and input.handler n (handler_guard n input) (handler_errorTyped n input))

/-! ### What the bytes of a packet are read as -/

theorem boot_wellTyped (ip bcast : U32) (hello : Nat → Byte) :
    (Node.boot ip bcast hello).WellTyped where
  sent _ hc := absurd hc List.not_mem_nil
  threads _ ht := absurd ht List.not_mem_nil

/-- The bytes of a packet are cast to what it carries, whatever lies behind them. -/
theorem read_carries (packet : Packet) (bytes : List Byte) (behind : Nat → Byte)
    (hbytes : packet.bytes = some bytes) (htyped : packet.WellTyped) :
    ∃ message, readMessage (payloadBytes bytes behind) = some message ∧
      packet.Carries message ∧ message.WellTyped := by
  cases packet with
  | rreq m => exact ⟨_, readMessage_rreq behind bytes m htyped hbytes, rfl, htyped⟩
  | rrep m beyond => exact ⟨_, readMessage_rrep behind bytes m beyond htyped hbytes, rfl, htyped⟩
  | rerr m words =>
      exact ⟨_, readMessage_rerr behind bytes m words htyped hbytes,
        ⟨rfl, (readRerr_bytes behind bytes m words hbytes).2⟩, htyped⟩
  | null length => cases hbytes
  | timing => cases hbytes

/-! ### The two networks -/

section Network

variable {ι : Type}

/-- Something happens to one of the nodes, whose execution finds this memory. -/
structure RawNetInput (ι : Type) where
  node : ι
  input : RawInput
  memory : Memory

/-- The input the handlers of the node see. -/
def RawNetInput.read (a : RawNetInput ι) : Option (NetInput ι) :=
  (a.input.read a.memory).map fun input => { node := a.node, input := input }

/-- What arrives are the bytes of a packet sent before by the node with its source
    address, to everybody or to the node it arrives at; anything else may happen. -/
def RawCarried (net : Network ι) (a : RawNetInput ι) : Prop :=
  match a.input.event with
  | .received src payload => ∃ i packet, (net i).ipAddress = src ∧ packet.bytes = some payload ∧
      (.sendBroadcast packet ∈ (net i).log ∨
        .sendUnicast (net a.node).ipAddress packet ∈ (net i).log)
  | _ => True

/-- What arrives as bytes arrives as the message they carry. -/
theorem read_carried (net : Network ι) (hnet : ∀ i, (net i).WellTyped) (a : RawNetInput ι)
    (h : RawCarried net a) :
    ∃ b, a.read = some b ∧ Carried net b ∧ b.input.event.WellTyped := by
  rcases a with ⟨node, ⟨now, event⟩, memory⟩
  cases event with
  | received src payload =>
      rcases h with ⟨i, packet, hsrc, hbytes, hsent⟩
      have htyped : packet.WellTyped := by
        rcases hsent with hall | hone
        · exact (hnet i).sent _ hall packet rfl
        · exact (hnet i).sent _ hone packet rfl
      rcases read_carries packet payload (memory .payload) hbytes htyped
        with ⟨message, hread, hcarries, hmessage⟩
      refine ⟨⟨node, { now := now, memory := memory }, .control src message⟩, ?_,
        ⟨i, packet, hsrc, hcarries, hsent⟩, hmessage⟩
      simp only [RawNetInput.read, RawInput.read, RawEvent.read, hread, Option.map_some]
  | data | outgoing | forwarded | search | wait | expire | rreqIdExpire | hello =>
      exact ⟨_, rfl, trivial, trivial⟩

variable [DecidableEq ι]

/-- The network after an input of one node. -/
def rawNetStep (net : Network ι) (a : RawNetInput ι) : Network ι :=
  Function.update net a.node (rawStep (net a.node) (a.input, a.memory))

theorem rawNetStep_read (net : Network ι) (a : RawNetInput ι) (b : NetInput ι)
    (h : a.read = some b) : rawNetStep net a = netStep net b := by
  rcases Option.map_eq_some_iff.mp h with ⟨input, hinput, rfl⟩
  unfold rawNetStep netStep rawStep
  simp only [hinput]

theorem wellTyped_netStep (net : Network ι) (hnet : ∀ i, (net i).WellTyped) (b : NetInput ι)
    (hb : b.input.event.WellTyped) (i : ι) : (netStep net b i).WellTyped := by
  by_cases hnode : i = b.node
  · rw [hnode, netStep_self]
    exact wellTyped_step _ b.input (hnet b.node) hb
  · rw [netStep_ne net b i hnode]
    exact hnet i

/-- A run of nodes that exchange the bytes of what they send is, input by input, a run of
    nodes that exchange the messages: every payload is read as what was sent, and the
    states are the same. -/
theorem bytes_refine (net : Network ι)
    (hboot : ∀ i, ∃ ip bcast hello, net i = Node.boot ip bcast hello)
    (raw : List (RawNetInput ι)) (hraw : AllSteps rawNetStep RawCarried net raw) :
    ∃ inputs, raw.map RawNetInput.read = inputs.map some ∧
      AllSteps netStep Carried net inputs ∧
      run rawNetStep net raw = run netStep net inputs := by
  have hnet : ∀ i, (net i).WellTyped := by
    intro i
    rcases hboot i with ⟨ip, bcast, hello, hnode⟩
    rw [hnode]
    exact boot_wellTyped ip bcast hello
  clear hboot
  induction raw generalizing net with
  | nil => exact ⟨[], rfl, trivial, rfl⟩
  | cons a rest ih =>
      rcases hraw with ⟨ha, hrest⟩
      rcases read_carried net hnet a ha with ⟨b, hread, hcarried, htyped⟩
      rw [rawNetStep_read net a b hread] at hrest
      rcases ih (netStep net b) hrest (wellTyped_netStep net hnet b htyped)
        with ⟨inputs, hinputs, hlegal, hrun⟩
      refine ⟨b :: inputs, ?_, ⟨hcarried, hlegal⟩, ?_⟩
      · rw [List.map_cons, List.map_cons, hread, hinputs]
      · rw [run_cons, rawNetStep_read net a b hread, hrun]
        rfl

end Network

/-- The bytes of the first request for 3.0.0.0. -/
def firstRequestBytes : List Byte :=
  [0, 1, 40, 1, 1, 0, 0, 0, 0, 0, 0, 3, 0, 0, 0, 0, 0, 0, 0, 1, 1, 0, 0, 0]

/-- The first node searches for 3.0.0.0, and the second gets the bytes of its request. -/
def requestInBytes : List (RawNetInput (Fin 2)) :=
  [⟨Fin.castSucc (Fin.last 0), ⟨Env.clear.now, .outgoing 0x03000000⟩, Env.clear.memory⟩,
    ⟨Fin.castSucc (Fin.last 0), ⟨Env.clear.now, .search 1⟩, Env.clear.memory⟩,
    ⟨Fin.last 1, ⟨Env.clear.now, .received 0x01000000 firstRequestBytes⟩, Env.clear.memory⟩]

theorem bytes_refine_request :
    ∃ inputs, requestInBytes.map RawNetInput.read = inputs.map some ∧
      AllSteps netStep Carried (Network.boot 2) inputs ∧
      run rawNetStep (Network.boot 2) requestInBytes = run netStep (Network.boot 2) inputs :=
  bytes_refine (Network.boot 2) (fun _ => ⟨_, _, _, rfl⟩) requestInBytes
    ⟨trivial, trivial, ⟨0, .rreq firstRequest, by decide, by decide, Or.inl (by decide)⟩, trivial⟩

end OpenManet
