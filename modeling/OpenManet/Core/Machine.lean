import OpenManet.Core.Handlers
import OpenManet.Library.Runs

/-!
# A Node as a State Machine

A node takes one step for every message it receives, every packet it sends or
forwards, every round of one of its threads. Each handler runs to its end in one
step, every mutex being granted to it.

The step function is total: a thread that does not exist, a timer that is not
running and a waiter that is not there leave the node as it is.

## Main definitions

* `Event`, `Input`: What can happen to a node, and in which surroundings.
* `Input.handler`: The program an input makes the node execute.
* `step`: The node after an input.
* `stepCalls`: The calls a step makes into the packet filter library.
* `receive`, `replyAfter`, `requestFor`, `errorAbout`: Inputs to write runs with.
* `OpsMeet`, `OpsInclude`: Every operation of a step meets a condition, or some does.

## Theorems

* `node_invariant`, `node_invariant_always`: The invariant rule of a node.
-/

namespace OpenManet

inductive Event where
  /-- A message of the protocol arrives from a neighbour. -/
  | control (src : U32) (message : ControlMessage)
  /-- A data packet arrives for this node. -/
  | data (src dest : U32)
  | outgoing (dest : U32)
  | forwarded (src dest : U32)
  /-- The search thread of this id runs to its next sleep. -/
  | search (id : Nat)
  /-- The waiter at this position makes its next access. -/
  | wait (k : Nat)
  /-- The expiration timer of the entry for an address runs out. -/
  | expire (ip : U32)
  /-- The request id of the entry for an address is forgotten. -/
  | rreqIdExpire (ip : U32)
  | hello

structure Input where
  env : Env
  event : Event

/-- Surroundings whose clock stands at zero and whose memory is clear. -/
def Env.clear : Env := { now := { tvSec := 0, tvNsec := 0 }, memory := fun _ _ => 0 }

/-- A message of the protocol arriving in clear surroundings. -/
def receive (src : U32) (message : ControlMessage) : Input :=
  { env := .clear, event := .control src message }

/-- A reply about a destination as it arrives after some hops. -/
def replyAfter (hops : Byte) (destIp destSeq originIp : U32) : ControlMessage :=
  .rrep { generateRrepMessage (fun _ => 0) 0 destIp destSeq originIp (toU32 myRouteTimeout) with
    hopCount := hops }

/-- A request of an originator as it arrives with so many hops left to go. -/
def requestFor (ttl : BitVec 11) (rreqId destIp originIp originSeq : U32) : ControlMessage :=
  .rreq { generateRreqMessage (rreqUnknown.setWidth 8) rreqId destIp 0 originIp originSeq with
    ttl := ttl }

/-- An error about one destination. -/
def errorAbout (destIp destSeq : U32) : ControlMessage :=
  .rerr (rerrHeader 0 1) fun i => if i = 0 then destIp else destSeq

def Input.handler (input : Input) : Handler :=
  match input.event with
  | .control src message => incomingControlMessage input.env src message
  | .data src dest => incomingDataMessage input.env src dest
  | .outgoing dest => outgoingMessage input.env dest
  | .forwarded src dest => forwardedMessages input.env src dest
  | .search id => searchThreadStep input.env id
  | .wait k => waiterStep input.env k
  | .expire ip => expirationFunc input.env ip
  | .rreqIdExpire ip => rreqIdFunc ip
  | .hello => helloInterval

/-- The node after an input. -/
def step : Node → Input → Node := programStep Op.apply Input.handler

/-- The calls a step adds to the record, newest first. -/
def stepCalls (n : Node) (input : Input) : List ApiCall :=
  (step n input).log.take ((step n input).log.length - n.log.length)

/-- Every operation the input makes the node perform meets the condition. -/
def OpsMeet (ok : Op → Node → Prop) (n : Node) (input : Input) : Prop :=
  input.handler.Meets Op.apply ok n

instance (ok : Op → Node → Prop) [∀ o n, Decidable (ok o n)] (n : Node) (input : Input) :
    Decidable (OpsMeet ok n input) :=
  inferInstanceAs (Decidable (Prog.Meets _ _ _ _))

/-- Some operation the input makes the node perform is as described. -/
def OpsInclude (P : Op → Node → Prop) (n : Node) (input : Input) : Prop :=
  input.handler.Performs Op.apply P n

instance (P : Op → Node → Prop) [∀ o n, Decidable (P o n)] (n : Node) (input : Input) :
    Decidable (OpsInclude P n input) :=
  inferInstanceAs (Decidable (Prog.Performs _ _ _ _))

/-- What every good operation keeps holds in every state a run of good
    operations reaches. -/
theorem node_invariant (ok : Op → Node → Prop) (inv : Node → Prop)
    (hop : ∀ (o : Op) n, inv n → ok o n → inv (o.apply n)) (n : Node) (inputs : List Input)
    (hn : inv n) (hok : AllSteps step (OpsMeet ok) n inputs) : inv (run step n inputs) :=
  run_exec_invariant Op.apply Input.handler ok inv hop n inputs hn hok

/-- What every operation keeps holds in every state a run reaches. -/
theorem node_invariant_always (inv : Node → Prop) (hop : ∀ (o : Op) n, inv n → inv (o.apply n))
    (n : Node) (inputs : List Input) (hn : inv n) : inv (run step n inputs) :=
  node_invariant (fun _ _ => True) inv (fun o n hn _ => hop o n hn) n inputs hn
    (allSteps_of_forall step
      (fun n input => Prog.meets_of_forall Op.apply (fun _ _ => trivial) input.handler n) n inputs)

end OpenManet
