import OpenManet.Theory.Delivery
import OpenManet.Theory.ErrorContents

/-!
# The Source Hears of the Loss

What becomes of a row of nodes when one of them has lost the route to a destination. The
first packet it is to pass on makes it broadcast an error. Each node before it that hears
of the error takes its own route down, in the table and in the kernel, and passes the
error on to the node before itself, up to the source.

It does not matter in which order this happens and what steady events come in between,
nor that packets still on their way come to nodes that have lost the route already. The
second word of the error, which should be a number, is whatever the first node has put
there.

## Main definitions

* `lossReport`: The error about one destination.
* `Node.Intact`, `Node.Down`: A node before and after it has heard.
* `Breakdown`: A row of nodes, the last of which has lost the route.
* `Breakdown.Expected`: What can happen to the row.

## Theorems

* `lost_forwarded`: A node without the route reports it.
* `Node.Intact.hears`: A node that hears of it takes its route down and passes it on.
* `Breakdown.reported`: Whoever hears of it has done so in the end, and all can.
-/

namespace OpenManet

/-- The error about one destination. -/
def lossReport (dest seq : U32) : Packet := .rerr (rerrHeader 0 1) [dest, seq]

/-- The error has been sent to everybody or to the neighbour. -/
def Node.HasReported (dest seq p : U32) (n : Node) : Prop :=
  .sendBroadcast (lossReport dest seq) ∈ n.log ∨ .sendUnicast p (lossReport dest seq) ∈ n.log

/-- An error about the destination arrives from the neighbour. -/
def Event.ReportsLoss (src dest seq : U32) : Event → Prop
  | .control s (.rerr header destPairs) =>
    s = src ∧ header.destCount = 1 ∧ destPairs 0 = dest ∧ destPairs 1 = seq
  | _ => False

/-- A packet for the destination is to be routed. Where there is a route, its source is in
    another slot: `forwarded_messages` locks the entry's mutex twice otherwise, and blocks. -/
def Event.PacketFor (dest : U32) (n : Node) : Event → Prop
  | .outgoing d => d = dest
  | .forwarded src d => d = dest ∧ (n.isValid dest = true → slotOf src ≠ slotOf dest)
  | _ => False

/-- The node sends packets for `dest` on over `gateway`, and lists these neighbours as
    using the route. -/
structure Node.Intact (dest gateway : U32) (users : List U32) (n : Node) : Prop
    extends n.Forwards dest gateway where
  listed : ∃ e, n.getRoutingEntry dest = some e ∧ e.destIp = dest ∧
    ∀ p ∈ users, p ∈ e.precursorList

/-- The node has no route to `dest` any more, and has told these neighbours. -/
structure Node.Down (dest : U32) (users : List U32) (n : Node) : Prop where
  lost : n.isValid dest = false
  kernel : kernelRoute n.log dest = none
  told : ∀ p ∈ users, ∃ seq, n.HasReported dest seq p

/-! ### Without a route -/

section Lost

variable (env : Env) {dest : U32} {n : Node} (h : n.isValid dest = false)

theorem startOrJoin_sparesRoutes (d : U32) (new : Bool) (n n' : Node) :
    (startOrJoin d new n).SparesRoutes n' := by
  unfold startOrJoin
  cases n.getRoutingEntry d with
  | none => trivial
  | some e =>
      simp only []
      split
      · trivial
      · split
        · exact ⟨trivial, trivial⟩
        · cases new with
          | true => exact ⟨trivial, trivial, trivial⟩
          | false => exact ⟨trivial, trivial, trivial, trivial⟩

theorem sendRreq_sparesRoutes (d : U32) (n : Node) : (sendRreq env d).SparesRoutes n :=
  ⟨trivial, startOrJoin_sparesRoutes d _ _ _⟩

include h

omit env in
theorem status_of_lost (e : RoutingEntry) (he : n.getRoutingEntry dest = some e) :
    e.status = .routeInvalid := by
  cases hs : e.status with
  | routeInvalid => rfl
  | routeValid =>
      have hvalid := (isValid_iff n dest).mpr ⟨e, he, hs⟩
      exact absurd (hvalid.symm.trans h) nofun

/-- An outgoing packet starts a search, or joins one, or is dropped. -/
theorem lost_outgoing_spares : (outgoingMessage env dest).SparesRoutes n := by
  simp only [outgoingMessage, Handler.SparesRoutes, Prog.Meets]
  split
  · trivial
  · cases he : n.getRoutingEntry dest with
    | none => exact sendRreq_sparesRoutes env dest n
    | some e =>
        have hinactive : e.isActive = false := by
          rw [RoutingEntry.isActive, status_of_lost h e he]
          rfl
        simp only [hinactive, Bool.false_eq_true, false_and, if_false]
        exact sendRreq_sparesRoutes env dest n

/-- A packet to be passed on comes to the error at the end. -/
theorem lost_forwarded_exec (src : U32) : ∃ seq, ∀ ok : Op → Node → Prop,
    (forwardedMessages env src dest).exec Op.apply n = (forwardedError dest seq).exec Op.apply n ∧
      ((forwardedError dest seq).Meets Op.apply ok n →
        (forwardedMessages env src dest).Meets Op.apply ok n) := by
  have hlost : ¬ n.isValid dest = true := by
    rw [h]
    exact Bool.false_ne_true
  have hover : ∀ hopIp srcEntry other, ∀ ok : Op → Node → Prop,
      (forwardedOver env src dest hopIp srcEntry other).exec Op.apply n =
          (forwardedError dest (n.destIpOf dest)).exec Op.apply n ∧
        ((forwardedError dest (n.destIpOf dest)).Meets Op.apply ok n →
          (forwardedOver env src dest hopIp srcEntry other).Meets Op.apply ok n) := by
    intro hopIp srcEntry other ok
    have hboth : ¬ (n.isValid dest = true ∧ n.isValid hopIp = true) := fun hand => hlost hand.1
    simp only [forwardedOver, Prog.exec, Prog.Meets, if_neg hboth, if_neg hlost]
    exact ⟨trivial, id⟩
  simp only [forwardedMessages, Prog.exec, Prog.Meets]
  cases he : n.getRoutingEntry dest with
  | none => exact ⟨0, fun ok => ⟨rfl, id⟩⟩
  | some e =>
      simp only [Option.isSome_some, if_true, Prog.exec, Prog.Meets, he]
      cases hhop : n.getRoutingEntry e.nextHop with
      | none => exact ⟨e.destIp, fun ok => ⟨rfl, id⟩⟩
      | some destHop =>
          refine ⟨n.destIpOf dest, fun ok => ?_⟩
          simp only []
          split
          · exact hover _ _ _ ok
          · exact hover _ _ _ ok

omit env in
theorem lost_packet_spares (input : Input) (hpacket : input.event.PacketFor dest n) :
    input.handler.SparesRoutes n := by
  rcases input with ⟨env, event⟩
  cases event with
  | outgoing d =>
      cases hpacket
      exact lost_outgoing_spares env h
  | forwarded src d =>
      rcases hpacket with ⟨rfl, -⟩
      rcases lost_forwarded_exec env h src with ⟨seq, hexec⟩
      exact (hexec _).2 ⟨trivial, trivial⟩
  | control | data | search | wait | expire | rreqIdExpire | hello => exact absurd hpacket id

/-- A packet that is to be passed on is dropped, and everybody is told. -/
theorem lost_forwarded (src : U32) : ∃ seq,
    (step n { env := env, event := .forwarded src dest }).log =
        .sendBroadcast (lossReport dest seq) :: n.log ∧
      ((forwardedMessages env src dest).exec Op.apply n).2 = .returned .packetDrop := by
  rcases lost_forwarded_exec env h src with ⟨seq, hexec⟩
  have hend := (hexec fun _ _ => True).1
  refine ⟨seq, ?_, ?_⟩
  · exact congrArg (fun r => r.1.log) hend
  · exact congrArg Prod.snd hend

end Lost

/-! ### One node of the row -/

section Node

variable {dest gateway : U32} {users : List U32} {n : Node}

/-- What spares the routes leaves a node that has lost one without it. -/
theorem spares_lost (o : Op) (hspares : o.SparesRoutes) (h : n.isValid dest = false) :
    (o.apply n).isValid dest = false := by
  cases he : n.getRoutingEntry dest with
  | some e =>
      rcases spares_entry n o hspares dest e he with ⟨e', he', hsame⟩
      rw [isValid_of_slot _ dest e' he', hsame.status, ← isValid_of_slot n dest e he]
      exact h
  | none =>
      -- An entry that is made is not valid.
      have hfresh : ∀ e', (o.apply n).getRoutingEntry dest = some e' →
          e'.status = .routeInvalid := by
        intro e' he'
        rw [Node.getRoutingEntry_eq] at he
        rw [Node.getRoutingEntry_eq, apply_slots, he] at he'
        cases heff : o.effect n with
        | keep =>
            rw [heff] at he'
            cases he'
        | create entry =>
            rw [heff] at he'
            simp only [Effect.slot, Option.getD_none] at he'
            split at he'
            · cases he'
              exact fresh_invalid n o _ heff
            · cases he'
        | remove ip =>
            rw [heff] at he'
            simp only [Effect.slot, ite_self] at he'
            cases he'
        | update ip f =>
            rw [heff] at he'
            simp only [Effect.slot, Option.map_none, ite_self] at he'
            cases he'
      rw [← Bool.not_eq_true]
      intro hvalid
      rcases (isValid_iff _ dest).mp hvalid with ⟨e', he', hs⟩
      cases hs.symm.trans (hfresh e' he')

theorem reported_of_log {n n' : Node} {seq p : U32} (hlog : n.log <:+ n'.log)
    (h : n.HasReported dest seq p) : n'.HasReported dest seq p :=
  h.imp (fun hall => hlog.subset hall) (fun hone => hlog.subset hone)

theorem log_suffix (n : Node) (o : Op) : n.log <:+ (o.apply n).log := by
  rw [apply_log]
  exact List.suffix_append _ _

theorem spares_intact (o : Op) (hspares : o.SparesRoutes) (h : n.Intact dest gateway users) :
    (o.apply n).Intact dest gateway users := by
  rcases h.listed with ⟨e, he, hdest, hlist⟩
  rcases spares_entry n o hspares dest e he with ⟨e', he', hsame⟩
  exact ⟨spares_forwards n o hspares dest gateway h.toForwards, e', he', hsame.destIp.trans hdest,
    fun p hp => hsame.precursors p (hlist p hp)⟩

theorem spares_down (o : Op) (hspares : o.SparesRoutes) (h : n.Down dest users) :
    (o.apply n).Down dest users where
  lost := spares_lost o hspares h.lost
  kernel := (spares_kernel n o hspares dest).trans h.kernel
  told p hp := by
    rcases h.told p hp with ⟨seq, hsent⟩
    exact ⟨seq, reported_of_log (log_suffix n o) hsent⟩

/-- The error as a handler call with one pair. -/
theorem reportsLoss_cases {src seq : U32} {event : Event} (h : event.ReportsLoss src dest seq) :
    ∃ header destPairs, event = .control src (.rerr header destPairs) ∧
      rerrPairs header.destCount destPairs = [(dest, seq)] := by
  cases event with
  | control s message =>
      cases message with
      | rerr header destPairs =>
          rcases h with ⟨rfl, hcount, hdest, hseq⟩
          refine ⟨header, destPairs, rfl, ?_⟩
          rw [hcount, ← hdest, ← hseq]
          rfl
      | rreq | rrep => exact absurd h id
  | data | outgoing | forwarded | search | wait | expire | rreqIdExpire | hello =>
      exact absurd h id

/-- The one pair of an error is passed on to a neighbour that is listed. -/
theorem collect_reported (block : Nat → U32) (e : RoutingEntry) (seq p : U32)
    (hdest : e.destIp = dest) (hp : p ∈ e.precursorList) (n : Node) :
    let l := RerrLocals.collect
      { target := { singleRerr := 0, broadcastRerr := false }, numDests := 0, pairs := block } e seq
    l.numDests ≠ 0 ∧ ((l.target.send l.packet).apply n).HasReported dest seq p := by
  have hlist : e.precursorList ≠ [] := List.ne_nil_of_mem hp
  have hpacket : RerrLocals.packet
      { target := RerrTarget.add { singleRerr := 0, broadcastRerr := false } e.precursorList
        numDests := 0 + 2, pairs := writePair block 0 e.destIp seq } = lossReport dest seq := by
    have hone : ((0 : Byte) + 2) / 2 = 1 := by decide
    rw [hdest, RerrLocals.packet]
    simp only [hone]
    rfl
  intro l
  have hl : l = { target := RerrTarget.add { singleRerr := 0, broadcastRerr := false }
                    e.precursorList
                  numDests := 0 + 2, pairs := writePair block 0 e.destIp seq } := if_pos hlist
  have hsome : (0 : Byte) + 2 ≠ 0 := by decide
  rw [hl]
  refine ⟨hsome, ?_⟩
  rw [hpacket]
  -- The error goes to the only neighbour listed, or to all.
  unfold RerrTarget.send
  split
  · rename_i hsingle
    rcases reaches_of_add p { singleRerr := 0, broadcastRerr := false } e.precursorList hp with
      hall | hone
    · exact absurd (hsingle.2.symm.trans hall) Bool.false_ne_true
    · exact Or.inr (by rw [hone]; exact List.mem_cons_self)
  · exact Or.inl List.mem_cons_self

/-- A node that hears of the loss takes its route down, and passes the error on. -/
theorem Node.Intact.hears (h : n.Intact dest gateway users) (hself : gateway ≠ n.ipAddress)
    (input : Input) (seq : U32) (herror : input.event.ReportsLoss gateway dest seq) :
    (step n input).Down dest users ∧ ∀ p ∈ users, (step n input).HasReported dest seq p := by
  rcases input with ⟨env, event⟩
  rcases reportsLoss_cases herror with ⟨header, destPairs, rfl, hpairs⟩
  rcases h.listed with ⟨e, he, hdest, hlist⟩
  have hthrough : e.goesThrough gateway = true := by
    rcases h.route with ⟨e', he', hactive, hhop⟩
    cases he.symm.trans he'
    rw [RoutingEntry.goesThrough, Bool.and_eq_true, decide_eq_true_eq, decide_eq_true_eq]
    exact ⟨hhop, isActive_status hactive⟩
  let broken := (Op.breakRoute env dest seq).apply n
  let l := RerrLocals.collect
    { target := { singleRerr := 0, broadcastRerr := false }, numDests := 0
      pairs := wordAt (env.memory .rerrPairs) } e seq
  have hstep : step n { env := env, event := .control gateway (.rerr header destPairs) } =
      if l.numDests = 0 then broken else (l.target.send l.packet).apply broken := by
    rw [step_rerr, if_neg hself, recvRerr, hpairs]
    simp only [rerrLoop, Prog.exec, he, if_pos hthrough]
    split <;> rfl
  have hlost : broken.isValid dest = false := by
    unfold Node.isValid
    rw [Node.getRoutingEntry_eq, breakRoute_slots, if_pos rfl, ← Node.getRoutingEntry_eq, he]
    rfl
  have hkernel : kernelRoute broken.log dest = none := by
    have hlog : broken.log = .deleteEntry e.destIp e.nextHop :: n.log := by
      rw [apply_log, Op.calls, Node.whenFound, he]
      rfl
    rw [hlog, hdest, (goesThrough_valid gateway e hthrough).1, kernelRoute_delete,
      if_pos ⟨rfl, h.kernel⟩]
  rw [hstep]
  split
  · -- Nobody is listed, and nobody has to be told.
    rename_i hnone
    have hempty : ∀ p ∈ users, False := fun p hp =>
      (collect_reported (wordAt (env.memory .rerrPairs)) e seq p hdest (hlist p hp) n).1 hnone
    exact ⟨⟨hlost, hkernel, fun p hp => absurd (hempty p hp) id⟩,
      fun p hp => absurd (hempty p hp) id⟩
  · have htold : ∀ p ∈ users, ((l.target.send l.packet).apply broken).HasReported dest seq p :=
      fun p hp => (collect_reported _ e seq p hdest (hlist p hp) broken).2
    have hspares : (l.target.send l.packet).SparesRoutes := by
      unfold RerrTarget.send
      split <;> trivial
    exact ⟨⟨spares_lost _ hspares hlost, (spares_kernel _ _ hspares dest).trans hkernel,
      fun p hp => ⟨seq, htold p hp⟩⟩, htold⟩

/-- An error about a route that is gone does nothing. -/
theorem lost_hears (h : n.isValid dest = false) (input : Input) (src seq : U32)
    (herror : input.event.ReportsLoss src dest seq) : step n input = n := by
  rcases input with ⟨env, event⟩
  rcases reportsLoss_cases herror with ⟨header, destPairs, rfl, hpairs⟩
  refine step_of_settled n env src header destPairs (Or.inr ?_)
  rw [hpairs]
  intro p hp e he
  rw [List.mem_singleton.mp hp] at he
  rw [RoutingEntry.goesThrough, status_of_lost h e he]
  exact Bool.and_false _

end Node

/-! ### The row -/

/-- A row of nodes that send packets for `dest` on to each other, the last of which has
    lost the route. -/
structure Breakdown (ι : Type) where
  hops : Nat
  node : Nat → ι
  address : Nat → U32
  dest : U32
  net : Network ι

namespace Breakdown

variable {ι : Type} (b : Breakdown ι)

/-- The neighbour a node of the row has its packets from. -/
def users : Nat → List U32
  | 0 => []
  | i + 1 => [b.address i]

/-- The addresses are those of the nodes, each node but the last has the route over the
    next one, and the last has none. -/
structure Ready : Prop where
  addresses : ∀ i ≤ b.hops, (b.net (b.node i)).ipAddress = b.address i
  apart : ∀ i j, i ≤ b.hops → j ≤ b.hops → b.address i = b.address j → i = j
  intact : ∀ i < b.hops, (b.net (b.node i)).Intact b.dest (b.address (i + 1)) (b.users i)
  lost : (b.net (b.node b.hops)).isValid b.dest = false

/-- What the `i`-th node does is steady, it has a packet for the destination, or it hears
    of the loss from the next one. -/
def ExpectedAt (i : Nat) (n : Node) (event : Event) : Prop :=
  event.Steady n ∨ event.PacketFor b.dest n ∨
    (i < b.hops ∧ ∃ seq, event.ReportsLoss (b.address (i + 1)) b.dest seq)

/-- The nodes off the row may do anything. -/
def Expected (net : Network ι) (a : NetInput ι) : Prop :=
  ∀ i ≤ b.hops, a.node = b.node i → b.ExpectedAt i (net a.node) a.input.event

/-- The `i`-th node hears of the loss in the run. -/
def Hears (i : Nat) (inputs : List (NetInput ι)) : Prop :=
  ∃ a ∈ inputs, a.node = b.node i ∧
    ∃ seq, a.input.event.ReportsLoss (b.address (i + 1)) b.dest seq

/-- A packet for the destination comes to the last node in the run. -/
def Loses (inputs : List (NetInput ι)) : Prop :=
  ∃ a ∈ inputs, a.node = b.node b.hops ∧ ∃ src, a.input.event = .forwarded src b.dest

/-- Who has heard of the loss has taken the route down and told the one before it. -/
structure Reported (inputs : List (NetInput ι)) (net : Network ι) : Prop where
  last : b.Loses inputs →
    ∃ seq, .sendBroadcast (lossReport b.dest seq) ∈ (net (b.node b.hops)).log
  others : ∀ i < b.hops, b.Hears i inputs → (net (b.node i)).Down b.dest (b.users i)

/-- A node of the row has its route, or has lost it and told the one before it. -/
def RowState (i : Nat) (n : Node) : Prop :=
  n.ipAddress = b.address i ∧
    (n.Intact b.dest (b.address (i + 1)) (b.users i) ∨ n.Down b.dest (b.users i))

section Steps

variable {b}

/-- What a handler that spares the routes keeps. -/
theorem step_of_spares (inv : Node → Prop)
    (hop : ∀ (o : Op) n, o.SparesRoutes → inv n → inv (o.apply n)) (n : Node) (input : Input)
    (hn : inv n) (hspares : input.handler.SparesRoutes n) : inv (step n input) :=
  Prog.exec_invariant Op.apply (fun o _ => o.SparesRoutes) inv (fun o n hn ho => hop o n ho hn)
    input.handler n hn hspares

/-- Without the route everything expected but the error spares the routes. -/
theorem lost_spares {dest : U32} {n : Node} (h : n.isValid dest = false) (input : Input)
    (hinput : input.event.Steady n ∨ input.event.PacketFor dest n) :
    input.handler.SparesRoutes n := by
  rcases hinput with hsteady | hpacket
  · exact steady_spares n input hsteady
  · exact lost_packet_spares h input hpacket

/-- And with it, too. -/
theorem intact_spares {dest gateway : U32} {users : List U32} {n : Node}
    (h : n.Intact dest gateway users) (input : Input)
    (hinput : input.event.Steady n ∨ input.event.PacketFor dest n) :
    input.handler.SparesRoutes n := by
  rcases hinput with hsteady | hpacket
  · exact steady_spares n input hsteady
  · refine steady_spares n input ?_
    rcases input with ⟨env, event⟩
    cases event with
    | outgoing d =>
        cases hpacket
        exact ⟨_, h.toForwards⟩
    | forwarded src d =>
        rcases hpacket with ⟨rfl, hslot⟩
        exact ⟨hslot h.isValid, _, h.toForwards⟩
    | control | data | search | wait | expire | rreqIdExpire | hello => exact absurd hpacket id

/-- A node that has heard of the loss stays without its route. -/
theorem down_step (i : Nat) (n : Node) (hn : n.Down b.dest (b.users i)) (input : Input)
    (hinput : b.ExpectedAt i n input.event) : (step n input).Down b.dest (b.users i) := by
  rcases or_assoc.mpr hinput with hother | ⟨-, seq, herror⟩
  · exact step_of_spares _ (fun o n ho hn => spares_down o ho hn) n input hn
      (lost_spares hn.lost input hother)
  · rw [lost_hears hn.lost input _ seq herror]
    exact hn

/-- So does the last one. -/
theorem last_step (n : Node) (hn : n.isValid b.dest = false) (input : Input)
    (hinput : b.ExpectedAt b.hops n input.event) : (step n input).isValid b.dest = false := by
  rcases or_assoc.mpr hinput with hother | ⟨hlast, -⟩
  · exact step_of_spares (fun n => n.isValid b.dest = false)
      (fun o n ho hn => spares_lost o ho hn) n input hn (lost_spares hn input hother)
  · exact absurd hlast (Nat.lt_irrefl _)

variable (h : b.Ready)

include h

theorem Ready.rowState_step (i : Nat) (hi : i < b.hops) (n : Node) (hn : b.RowState i n)
    (input : Input) (hinput : b.ExpectedAt i n input.event) : b.RowState i (step n input) := by
  refine ⟨(step_ipAddress n input).trans hn.1, ?_⟩
  rcases hn.2 with hintact | hdown
  · rcases or_assoc.mpr hinput with hother | ⟨-, seq, herror⟩
    · exact Or.inl (step_of_spares _ (fun o n ho hn => spares_intact o ho hn) n input hintact
        (intact_spares hintact input hother))
    · have hself : b.address (i + 1) ≠ n.ipAddress := by
        rw [hn.1]
        exact fun heq => absurd (h.apart _ _ hi (Nat.le_of_lt hi) heq) (Nat.succ_ne_self i)
      exact Or.inr (hintact.hears hself input seq herror).1
  · exact Or.inr (down_step i n hdown input hinput)

end Steps

/-! ### Runs -/

section Runs

variable [DecidableEq ι] {b} (h : b.Ready)

include h

theorem Ready.rowState (i : Nat) (hi : i < b.hops) (inputs : List (NetInput ι))
    (hok : AllSteps netStep b.Expected b.net inputs) :
    b.RowState i (run netStep b.net inputs (b.node i)) :=
  network_invariant b.Expected (b.RowState i) (b.node i)
    (fun _ a ha hn hexp => h.rowState_step i hi _ hn a.input
      (ha ▸ hexp i (Nat.le_of_lt hi) ha)) b.net inputs
    ⟨h.addresses i (Nat.le_of_lt hi), Or.inl (h.intact i hi)⟩ hok

theorem Ready.last_lost (inputs : List (NetInput ι))
    (hok : AllSteps netStep b.Expected b.net inputs) :
    (run netStep b.net inputs (b.node b.hops)).isValid b.dest = false :=
  network_invariant b.Expected (fun n => n.isValid b.dest = false) (b.node b.hops)
    (fun _ a ha hn hexp => last_step _ hn a.input (ha ▸ hexp b.hops (Nat.le_refl _) ha))
    b.net inputs h.lost hok

/-- Who has heard of the loss is without the route from then on. -/
theorem Ready.down (inputs : List (NetInput ι)) (hok : AllSteps netStep b.Expected b.net inputs)
    (i : Nat) (hi : i < b.hops) (hhears : b.Hears i inputs) :
    (run netStep b.net inputs (b.node i)).Down b.dest (b.users i) := by
  rcases hhears with ⟨a, ha, hnode, seq, herror⟩
  rcases List.append_of_mem ha with ⟨before, after, rfl⟩
  rcases (allSteps_append _ _ _ _ _).mp hok with ⟨hbefore, hexp, hafter⟩
  have hstate := h.rowState i hi before hbefore
  have hnow : (netStep (run netStep b.net before) a (b.node i)).Down b.dest (b.users i) := by
    rw [← hnode, netStep_self, hnode]
    rcases hstate.2 with hintact | hdown
    · have hself : b.address (i + 1) ≠ (run netStep b.net before (b.node i)).ipAddress := by
        rw [hstate.1]
        exact fun heq => absurd (h.apart _ _ hi (Nat.le_of_lt hi) heq) (Nat.succ_ne_self i)
      exact (hintact.hears hself a.input seq herror).1
    · exact down_step i _ hdown a.input (hnode ▸ hexp i (Nat.le_of_lt hi) hnode)
  rw [run_append, run_cons]
  exact network_invariant b.Expected (Node.Down b.dest (b.users i)) (b.node i)
    (fun _ a ha hn hexp => down_step i _ hn a.input (ha ▸ hexp i (Nat.le_of_lt hi) ha)) _ after
    hnow hafter

/-- The last node has told everybody once it has had a packet to pass on. -/
theorem Ready.last_told (inputs : List (NetInput ι))
    (hok : AllSteps netStep b.Expected b.net inputs) (hloses : b.Loses inputs) :
    ∃ seq, .sendBroadcast (lossReport b.dest seq) ∈
      (run netStep b.net inputs (b.node b.hops)).log := by
  rcases hloses with ⟨a, ha, hnode, src, hevent⟩
  rcases List.append_of_mem ha with ⟨before, after, rfl⟩
  rcases (allSteps_append _ _ _ _ _).mp hok with ⟨hbefore, -⟩
  rcases lost_forwarded a.input.env (h.last_lost before hbefore) src with ⟨seq, hlog, -⟩
  have hinput : a.input = { env := a.input.env, event := .forwarded src b.dest } := by
    rw [← hevent]
  refine ⟨seq, ?_⟩
  rw [run_append, run_cons]
  refine network_invariant (fun _ _ => True)
    (fun n => .sendBroadcast (lossReport b.dest seq) ∈ n.log) (b.node b.hops)
    (fun _ a _ hn _ => ?_) _ after ?_ (allSteps_of_forall netStep (fun _ _ => trivial) _ _)
  · rw [log_step]
    exact List.mem_append_right _ hn
  · rw [← hnode, netStep_self, hnode, hinput, hlog]
    exact List.mem_cons_self

/-- The errors of the last `k` of the nodes that can hear one can be delivered as they are
    sent. -/
theorem Ready.carried (k : Nat) (hk : k ≤ b.hops) : ∃ inputs,
    AllSteps netStep b.Expected b.net inputs ∧ AllSteps netStep Carried b.net inputs ∧
      b.Loses inputs ∧ ∀ i < b.hops, b.hops ≤ i + k → b.Hears i inputs := by
  induction k with
  | zero =>
      let a : NetInput ι := ⟨b.node b.hops, { env := .clear, event := .forwarded 0 b.dest }⟩
      -- The last node has no route, so the slot of the source does not matter.
      have hlost : (b.net a.node).isValid b.dest = true → slotOf 0 ≠ slotOf b.dest :=
        fun hvalid => absurd (h.lost.symm.trans hvalid) Bool.false_ne_true
      refine ⟨[a], ⟨fun i hi _ => Or.inr (Or.inl ⟨rfl, hlost⟩), trivial⟩, ⟨trivial, trivial⟩,
        ⟨a, List.mem_cons_self, rfl, 0, rfl⟩, fun i hi hle => ?_⟩
      omega
  | succ k ih =>
      rcases ih (by omega) with ⟨inputs, hexp, hcarried, hloses, hhears⟩
      -- The next to hear is the node before the `i`-th of the row from its end.
      obtain ⟨i, hi⟩ : ∃ i, i + (k + 1) = b.hops := ⟨b.hops - (k + 1), by omega⟩
      have hsent : ∃ seq, (run netStep b.net inputs (b.node (i + 1))).HasReported b.dest seq
          (b.address i) := by
        by_cases hlast : i + 1 = b.hops
        · rcases h.last_told inputs hexp hloses with ⟨seq, hsent⟩
          exact ⟨seq, Or.inl (hlast ▸ hsent)⟩
        · have hdown := h.down inputs hexp (i + 1) (by omega) (hhears (i + 1) (by omega) (by omega))
          exact hdown.told (b.address i) List.mem_cons_self
      rcases hsent with ⟨seq, hsent⟩
      let a : NetInput ι := ⟨b.node i, receive (b.address (i + 1)) (errorAbout b.dest seq)⟩
      have hreports : a.input.event.ReportsLoss (b.address (i + 1)) b.dest seq :=
        ⟨rfl, rfl, rfl, rfl⟩
      have haddress : ∀ j ≤ b.hops, (run netStep b.net inputs (b.node j)).ipAddress = b.address j :=
        fun j hj => (run_ipAddress b.net inputs).trans (h.addresses j hj)
      refine ⟨inputs ++ [a], ?_, ?_, ?_, ?_⟩
      · refine (allSteps_append _ _ _ _ _).mpr ⟨hexp, fun j hj hnode => ?_, trivial⟩
        have hij : i = j := h.apart i j (by omega) hj (by
          rw [← haddress i (by omega), ← haddress j hj]
          exact congrArg (fun m => (run netStep b.net inputs m).ipAddress) hnode)
        exact Or.inr (Or.inr ⟨by omega, seq, hij ▸ hreports⟩)
      · refine (allSteps_append _ _ _ _ _).mpr ⟨hcarried, ⟨b.node (i + 1), lossReport b.dest seq,
          haddress (i + 1) (by omega), ⟨rfl, fun j hj => ?_⟩, ?_⟩, trivial⟩
        · match j, hj with
          | 0, _ => rfl
          | 1, _ => rfl
        · rw [haddress i (by omega)]
          exact hsent
      · rcases hloses with ⟨a', ha', hrest⟩
        exact ⟨a', List.mem_append_left _ ha', hrest⟩
      · intro j hj hle
        by_cases hold : b.hops ≤ j + k
        · rcases hhears j hj hold with ⟨a', ha', hrest⟩
          exact ⟨a', List.mem_append_left _ ha', hrest⟩
        · have hij : j = i := by omega
          rw [hij]
          exact ⟨a, List.mem_append_right _ List.mem_cons_self, rfl, seq, hreports⟩

end Runs

/-- In every run in which the row does what is expected of it, the nodes that have heard
    of the loss have taken their route down and told the one before them; and there is a
    run that delivers what has been sent and nothing else in which all of them hear. -/
theorem reported [DecidableEq ι] (b : Breakdown ι) (h : b.Ready) :
    (∃ inputs, AllSteps netStep b.Expected b.net inputs ∧ AllSteps netStep Carried b.net inputs ∧
      b.Loses inputs ∧ ∀ i < b.hops, b.Hears i inputs) ∧
    ∀ inputs, AllSteps netStep b.Expected b.net inputs →
      b.Reported inputs (run netStep b.net inputs) := by
  refine ⟨?_, fun inputs hok => ⟨h.last_told inputs hok, h.down inputs hok⟩⟩
  rcases h.carried b.hops (Nat.le_refl _) with ⟨inputs, hexp, hcarried, hloses, hhears⟩
  exact ⟨inputs, hexp, hcarried, hloses, fun i hi => hhears i hi (Nat.le_add_left _ _)⟩

end Breakdown

/-- The route from 1.0.0.0 over 2.0.0.0 and 3.0.0.0 to 4.0.0.0, which has expired at
    3.0.0.0. -/
def expiredAhead : Breakdown (Fin 4) where
  hops := 2
  node i := Fin.ofNat 4 i
  address i := BitVec.ofNat 32 (i + 1) <<< 24
  dest := 0x04000000
  net := run netStep (Network.boot 4)
    [⟨1, receive 0x01000000 (requestFor 7 1 0x04000000 0x01000000 1)⟩,
      ⟨2, receive 0x02000000 (requestFor 6 1 0x04000000 0x01000000 1)⟩,
      ⟨2, receive 0x04000000 (replyAfter 0 0x04000000 5 0x01000000)⟩,
      ⟨1, receive 0x03000000 (replyAfter 1 0x04000000 5 0x01000000)⟩,
      ⟨0, receive 0x02000000 (replyAfter 2 0x04000000 5 0x01000000)⟩,
      ⟨2, { env := .clear, event := .expire 0x04000000 }⟩]

theorem expiredAhead_ready : expiredAhead.Ready where
  addresses := by decide
  apart := by
    have haddresses : ∀ i ≤ 2, ∀ j ≤ 2,
        expiredAhead.address i = expiredAhead.address j → i = j := by decide
    exact fun i j hi hj => haddresses i hi j hj
  intact i hi := by
    match i, hi with
    | 0, _ => exact ⟨by decide, _, rfl, rfl, nofun⟩
    | 1, _ =>
        refine ⟨by decide, _, rfl, rfl, fun p hp => ?_⟩
        rw [List.mem_singleton.mp hp]
        exact List.mem_of_elem_eq_true rfl
  lost := by decide

/-- A packet comes to 3.0.0.0, and the error goes back to 1.0.0.0. -/
def lossPassedBack : List (NetInput (Fin 4)) :=
  [⟨2, { env := .clear, event := .forwarded 0x01000000 0x04000000 }⟩,
    ⟨1, receive 0x03000000 (errorAbout 0x04000000 0x04000000)⟩,
    ⟨0, receive 0x02000000 (errorAbout 0x04000000 0x04000000)⟩]

theorem reported_expiredAhead :
    expiredAhead.Reported lossPassedBack (run netStep expiredAhead.net lossPassedBack) := by
  refine (expiredAhead.reported expiredAhead_ready).2 lossPassedBack ?_
  have hnode : ∀ i ≤ 2, ∀ j ≤ 2, Fin.ofNat 4 i = Fin.ofNat 4 j → i = j := by decide
  refine ⟨fun i hi _ => Or.inr (Or.inl ⟨rfl, fun _ => by decide⟩), fun i hi ha => ?_,
    fun i hi ha => ?_, trivial⟩
  · have hone : 1 = i := hnode 1 (by decide) i hi ha
    subst hone
    exact Or.inr (Or.inr ⟨by decide, _, rfl, rfl, rfl, rfl⟩)
  · have hzero : 0 = i := hnode 0 (by decide) i hi ha
    subst hzero
    exact Or.inr (Or.inr ⟨by decide, _, rfl, rfl, rfl, rfl⟩)

end OpenManet
