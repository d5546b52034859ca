import OpenManet.Core.Machine
import Mathlib.Logic.Function.Basic

/-!
# A Network of Nodes

Nodes that run the handlers side by side. A step of the network is a step of one
node. A packet that has been sent stays in the sender's record of calls, so a
packet can be delivered late, more than once, to any set of nodes or not at all:
an order of delivery, delay, loss and duplication is a list of inputs that
delivers what is in some record.

Which messages may be delivered is a condition on the inputs and stated with the
results that need one.

## Main definitions

* `Network`, `NetInput`, `netStep`: The nodes and what one of them does.
* `Node.HasSent`, `Network.InFlight`: The packets that can arrive.
* `Network.boot`: A network to write runs with.

## Theorems

* `network_invariant`: What every step of a node keeps, it has after a run.
-/

namespace OpenManet

/-- The nodes of a network by name. -/
abbrev Network (ι : Type) := ι → Node

/-- Something happens to one of the nodes. -/
structure NetInput (ι : Type) where
  node : ι
  input : Input

section Network

variable {ι : Type} [DecidableEq ι]

/-- The network after an input of one node. -/
def netStep (net : Network ι) (a : NetInput ι) : Network ι :=
  Function.update net a.node (step (net a.node) a.input)

/-- The node has handed the packet to the packet filter library. -/
def Node.HasSent (packet : Packet) (n : Node) : Prop :=
  .sendBroadcast packet ∈ n.log ∨ ∃ dest, .sendUnicast dest packet ∈ n.log

/-- The packet has been sent by some node. -/
def Network.InFlight (packet : Packet) (net : Network ι) : Prop := ∃ i, (net i).HasSent packet

theorem netStep_self (net : Network ι) (a : NetInput ι) :
    netStep net a a.node = step (net a.node) a.input := Function.update_self _ _ _

theorem netStep_ne (net : Network ι) (a : NetInput ι) (i : ι) (h : i ≠ a.node) :
    netStep net a i = net i := Function.update_of_ne h _ _

/-- What every step of a node keeps, under a condition on the network, the node has
    after a run whose steps meet it. -/
theorem network_invariant (ok : Network ι → NetInput ι → Prop) (inv : Node → Prop) (i : ι)
    (hstep : ∀ net a, a.node = i → inv (net i) → ok net a → inv (step (net i) a.input))
    (net : Network ι) (inputs : List (NetInput ι)) (hi : inv (net i))
    (hok : AllSteps netStep ok net inputs) : inv (run netStep net inputs i) := by
  refine run_invariant netStep ok (fun net => inv (net i)) ?_ net inputs hi hok
  intro net a hnet ha
  by_cases hnode : i = a.node
  · have hnext := hstep net a hnode.symm hnet ha
    rw [hnode] at hnext ⊢
    rw [netStep_self]
    exact hnext
  · rw [netStep_ne net a i hnode]
    exact hnet

end Network

/-- Nodes 1.0.0.0, 2.0.0.0 and so on at start-up. -/
def Network.boot (nodes : Nat) : Network (Fin nodes) := fun i =>
  Node.boot (BitVec.ofNat 32 (i.val + 1) <<< 24) 0xFFFFFFFF (fun _ => 0)

theorem boot_not_inFlight (nodes : Nat) (packet : Packet) :
    ¬ (Network.boot nodes).InFlight packet := by
  rintro ⟨i, hi | ⟨dest, hi⟩⟩
  · exact absurd hi List.not_mem_nil
  · exact absurd hi List.not_mem_nil

end OpenManet
