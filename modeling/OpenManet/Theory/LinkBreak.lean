import OpenManet.Theory.KernelRoutes
import OpenManet.Theory.SeqNumbers

/-!
# Link Breaks

A forwarded packet whose route is valid over an invalid next hop takes down every
destination listed under the next hop, whatever route its entry has by now. The
list is only ever appended to: a route that moves to another next hop stays
listed under the old one, and a next hop whose entry was removed and made anew
lists nothing. `recv_rerr`, which is told of the same break, asks instead whether
the entry is valid and goes through the sender.

The loop breaks an entry once for each listed address of its slot and touches
nothing in the other slots, so the two sets differ exactly where the list and
the next hops do.

## Main definitions

* `TakesLinkBreak`: A packet meets a link break.
* `BreaksExactly`: The break takes down the routes through the next hop and
  leaves the others alone.
* `Node.Lists`: The list of a next hop agrees with the next hops.

## Theorems

* `breakLoop_kernel`: The kernel's routes through the loop.
* `step_linkBreak`: A step that meets a link break.
* `breaksExactly_iff_lists`: In every run, when a break is exact.
* `not_breaksExactly_movedRoute`: A route that has moved is taken down.
-/

namespace OpenManet

/-- A packet for the destination meets a link break at the next hop: the
    destination's route is valid and the entry of its next hop is not. -/
def TakesLinkBreak (n : Node) (dest : U32) (hop : RoutingEntry) : Prop :=
  ∃ destination, n.getRoutingEntry dest = some destination ∧ destination.status = .routeValid ∧
    n.getRoutingEntry destination.nextHop = some hop ∧ hop.status = .routeInvalid

/-- From one node to the other, the entries that change from valid to invalid are
    those whose valid route goes through the next hop, and every other entry keeps
    its status, its number and its route in the kernel. -/
structure BreaksExactly (hop : RoutingEntry) (n n' : Node) : Prop where
  broken : ∀ i e, n.routes.slots i = some e →
    ((e.status = .routeValid ∧ ∃ e', n'.routes.slots i = some e' ∧ e'.status = .routeInvalid) ↔
      e.goesThrough hop.destIp = true)
  others : ∀ i e, n.routes.slots i = some e → ¬ e.goesThrough hop.destIp = true →
    ∃ e', n'.routes.slots i = some e' ∧ e'.status = e.status ∧ e'.destSeq = e.destSeq ∧
      ∀ gateway, kernelRoute n.log e.destIp = some gateway →
        kernelRoute n'.log e.destIp = some gateway

/-- The addresses listed under the next hop find exactly the entries whose valid
    route goes through it. -/
def Node.Lists (hop : RoutingEntry) (n : Node) : Prop :=
  n.Entries fun e =>
    (∃ d ∈ hop.nextHopFor, n.getRoutingEntry d = some e) ↔ e.goesThrough hop.destIp = true

theorem goesThrough_iff (ip : U32) (e : RoutingEntry) :
    e.goesThrough ip = true ↔ e.nextHop = ip ∧ e.status = .routeValid := by
  rw [RoutingEntry.goesThrough, Bool.and_eq_true, decide_eq_true_eq, decide_eq_true_eq]

/-! ### The loop -/

/-- An address is listed for the slot as often as it counts. -/
theorem countIn_ne_zero (i : Fin 256) (list : List U32) :
    countIn i list ≠ 0 ↔ ∃ d ∈ list, slotOf d = i := by
  rw [countIn, ne_eq, List.length_eq_zero_iff, List.filter_eq_nil_iff]
  constructor
  · intro h
    by_contra hnone
    exact h (fun d hd hslot => hnone ⟨d, hd, of_decide_eq_true hslot⟩)
  · rintro ⟨d, hd, hslot⟩ h
    exact h d hd (decide_eq_true hslot)

/-- A valid entry is taken down when it is listed. -/
theorem Broken.invalid_iff {k : Nat} {e e' : RoutingEntry} (h : Broken k e e')
    (hvalid : e.status = .routeValid) : e'.status = .routeInvalid ↔ k ≠ 0 := by
  rw [h.status, hvalid]
  by_cases hk : k = 0
  · rw [if_pos hk]
    exact ⟨nofun, fun hne => absurd hk hne⟩
  · rw [if_neg hk]
    exact ⟨fun _ => hk, fun _ => rfl⟩

/-- The loop leaves the kernel's routes for the addresses of the other slots. -/
theorem breakLoop_kernel (env : Env) (dest : U32) (list : List U32) (l : BreakLocals) (n : Node)
    (d : U32) (hd : countIn (slotOf d) list = 0) :
    kernelRoute ((breakLoop env dest list l).exec Op.apply n).1.log d = kernelRoute n.log d := by
  induction list generalizing l n with
  | nil =>
      simp only [breakLoop, Prog.exec, dropPacket, RerrTarget.send]
      split <;> rfl
  | cons ip rest ih =>
      rw [countIn_cons] at hd
      have hrest : countIn (slotOf d) rest = 0 := by omega
      -- The address shares its slot with none in the list, so this break is elsewhere.
      have hother : slotOf d ≠ slotOf ip := by
        intro heq
        rw [if_pos heq.symm] at hd
        omega
      simp only [breakLoop, Prog.exec]
      by_cases hfound : (n.getRoutingEntry ip).isSome = true
      · have hwork : (Op.linkBreak env ip).WorksIn (slotOf ip) n :=
          delete_worksIn n _ ip _ rfl rfl
        rw [if_pos hfound]
        simp only [Prog.exec]
        rw [ih _ _ hrest, apply_log, hwork.2 d hother]
      · rw [if_neg hfound]
        exact ih l n hrest

/-! ### The step -/

/-- With both entries found a packet comes to the tests of `forwardedOver`, under one
    mutex or under two. -/
theorem step_forwardedOver (n : Node) (env : Env) (src dest : U32)
    (destination hop : RoutingEntry) (hdest : n.getRoutingEntry dest = some destination)
    (hhop : n.getRoutingEntry destination.nextHop = some hop) :
    ∃ srcEntry other, step n ⟨env, .forwarded src dest⟩ =
      ((forwardedOver env src dest destination.nextHop srcEntry other).exec Op.apply n).1 := by
  simp only [step, programStep, Input.handler, forwardedMessages, Prog.exec]
  rw [if_pos (by rw [hdest, Option.isSome_some])]
  simp only [Prog.exec, hdest, hhop]
  split
  · exact ⟨_, true, rfl⟩
  · exact ⟨_, false, rfl⟩

/-- Restarting the next hop's timer is all that happens before the loop. -/
theorem step_linkBreak_exec (n : Node) (env : Env) (src dest : U32)
    (destination hop : RoutingEntry) (hdest : n.getRoutingEntry dest = some destination)
    (hvalid : destination.status = .routeValid)
    (hhop : n.getRoutingEntry destination.nextHop = some hop)
    (hinvalid : hop.status = .routeInvalid) :
    step n ⟨env, .forwarded src dest⟩ =
      ((breakLoop env dest hop.nextHopFor (breakStart env hop)).exec Op.apply
        ((Op.write destination.nextHop (.timer env (toU32 deletePeriod))).apply n)).1 := by
  have hdestValid : n.isValid dest = true := by
    rw [Node.isValid, hdest, Option.any_some, hvalid]
    rfl
  have hhopValid : ¬ n.isValid destination.nextHop = true := by
    rw [Node.isValid, hhop, Option.any_some, hinvalid]
    decide
  rcases step_forwardedOver n env src dest destination hop hdest hhop with ⟨srcEntry, other, hstep⟩
  rw [hstep]
  simp only [forwardedOver, Prog.exec]
  -- Not both routes are valid, but that of the destination is.
  rw [if_neg (fun hboth => hhopValid hboth.2), if_pos hdestValid]
  simp only [forwardedBreak, Prog.exec, hhop]

/-- A step that meets a link break breaks an entry once for each listed address
    of its slot, and leaves the kernel's routes for the other slots. -/
theorem step_linkBreak (n : Node) (env : Env) (src dest : U32) (hop : RoutingEntry)
    (h : TakesLinkBreak n dest hop) :
    (∀ i e, n.routes.slots i = some e →
      ∃ e', (step n ⟨env, .forwarded src dest⟩).routes.slots i = some e' ∧
        Broken (countIn i hop.nextHopFor) e e') ∧
    ∀ d, countIn (slotOf d) hop.nextHopFor = 0 →
      kernelRoute (step n ⟨env, .forwarded src dest⟩).log d = kernelRoute n.log d := by
  rcases h with ⟨destination, hdest, hvalid, hhop, hinvalid⟩
  have hexec := step_linkBreak_exec n env src dest destination hop hdest hvalid hhop hinvalid
  -- The timer is no field a break is about.
  have hwrite : ∀ i e, n.routes.slots i = some e →
      ∃ e₁, ((Op.write destination.nextHop (.timer env (toU32 deletePeriod))).apply n).routes.slots
        i = some e₁ ∧ Broken 0 e e₁ := by
    intro i e he
    rw [apply_slots, he]
    simp only [Op.effect, Effect.slot, Option.map_some]
    split
    · exact ⟨_, rfl, (BitVec.add_zero _).symm, rfl, rfl, rfl, rfl⟩
    · exact ⟨e, rfl, broken_zero e⟩
  rw [hexec]
  constructor
  · intro i e he
    rcases hwrite i e he with ⟨e₁, he₁, hsame⟩
    rcases breakLoop_breaks env dest hop.nextHopFor (breakStart env hop) _ i e₁ he₁ with
      ⟨e', he', hbroken⟩
    refine ⟨e', he', ?_, ?_, hbroken.seqValid.trans hsame.seqValid,
      hbroken.nextHop.trans hsame.nextHop, hbroken.destIp.trans hsame.destIp⟩
    · have hseq : e₁.destSeq = e.destSeq := hsame.destSeq.trans (BitVec.add_zero _)
      rw [hbroken.destSeq, hseq]
    · rw [hbroken.status, hsame.status, if_pos rfl]
  · intro d hd
    rw [breakLoop_kernel env dest hop.nextHopFor _ _ d hd]
    rfl

/-- Counting up less than the whole range is seen. -/
theorem add_ofNat_ne (seq : U32) (k : Nat) (hk : k ≠ 0) (hlt : k < 2 ^ 32) :
    seq + BitVec.ofNat 32 k ≠ seq := by
  intro heq
  have hnat := congrArg BitVec.toNat heq
  rw [BitVec.toNat_add, BitVec.toNat_ofNat, Nat.mod_eq_of_lt hlt] at hnat
  have hseq := seq.isLt
  omega

/-- In every run, a link break is exact when, and only when, the list of the next
    hop agrees with the next hops. -/
theorem breaksExactly_iff_lists (ip bcast : U32) (hello : Nat → Byte) (inputs : List Input)
    (env : Env) (src dest : U32) (hop : RoutingEntry)
    (hbreak : TakesLinkBreak (run step (Node.boot ip bcast hello) inputs) dest hop) :
    BreaksExactly hop (run step (Node.boot ip bcast hello) inputs)
        (step (run step (Node.boot ip bcast hello) inputs) ⟨env, .forwarded src dest⟩) ↔
      (run step (Node.boot ip bcast hello) inputs).Lists hop := by
  have hlists := nextHopFor_nodup ip bcast hello inputs
  generalize run step (Node.boot ip bcast hello) inputs = n at hbreak hlists
  rcases step_linkBreak n env src dest hop hbreak with ⟨hslots, hkernel⟩
  generalize step n ⟨env, .forwarded src dest⟩ = n' at hslots hkernel
  -- An address is listed for a slot as it finds the slot's entry.
  have hlisted : ∀ i e, n.routes.slots i = some e →
      ((∃ d ∈ hop.nextHopFor, n.getRoutingEntry d = some e) ↔
        countIn i hop.nextHopFor ≠ 0) := by
    intro i e he
    rw [countIn_ne_zero]
    constructor
    · rintro ⟨d, hd, hfound⟩
      exact ⟨d, hd, (n.routes.keyed _ e hfound).symm.trans (n.routes.keyed i e he)⟩
    · rintro ⟨d, hd, hslot⟩
      exact ⟨d, hd, by rw [Node.getRoutingEntry_eq, hslot, he]⟩
  constructor
  · intro hexact i e he
    rw [hlisted i e he]
    rcases hslots i e he with ⟨e', he', hbroken⟩
    constructor
    · -- A listed entry is invalid afterwards and its number has moved.
      intro hcount
      by_contra hother
      rcases hexact.others i e he hother with ⟨e'', he'', -, hseq, -⟩
      cases he'.symm.trans he''
      rcases hbreak with ⟨destination, -, -, hhop, -⟩
      have hle := countIn_le i _ (hlists _ hop hhop)
      exact add_ofNat_ne e.destSeq _ hcount (by omega) (hbroken.destSeq.symm.trans hseq)
    · -- An entry the break takes down was in the list.
      intro hthrough hcount
      rcases (hexact.broken i e he).mpr hthrough with ⟨hvalid, e'', he'', hinvalid⟩
      cases he'.symm.trans he''
      exact (hbroken.invalid_iff hvalid).mp hinvalid hcount
  · intro hlist
    have hindex : ∀ i e, n.routes.slots i = some e →
        (countIn i hop.nextHopFor ≠ 0 ↔ e.goesThrough hop.destIp = true) :=
      fun i e he => (hlisted i e he).symm.trans (hlist i e he)
    refine ⟨fun i e he => ?_, fun i e he hother => ?_⟩
    · rcases hslots i e he with ⟨e', he', hbroken⟩
      rw [← hindex i e he]
      constructor
      · rintro ⟨hvalid, e'', he'', hinvalid⟩
        cases he'.symm.trans he''
        exact (hbroken.invalid_iff hvalid).mp hinvalid
      · intro hcount
        have hvalid := ((goesThrough_iff _ e).mp ((hindex i e he).mp hcount)).2
        exact ⟨hvalid, e', he', (hbroken.invalid_iff hvalid).mpr hcount⟩
    · rw [← hindex i e he, not_not] at hother
      rcases hslots i e he with ⟨e', he', hbroken⟩
      refine ⟨e', he', ?_, ?_, fun gateway hroute => ?_⟩
      · rw [hbroken.status, if_pos hother]
      · rw [hbroken.destSeq, hother]
        exact BitVec.add_zero _
      · rw [hkernel e.destIp (by rw [n.routes.keyed i e he, hother]), hroute]

/-- One destination is learned over a neighbour, and the neighbour goes silent. -/
def lostNeighbour : List Input :=
  [receive 0x02000000 (replyAfter 1 0x03000000 5 0x01000000),
    ⟨.clear, .expire 0x02000000⟩]

/-- The entry of the neighbour after a run. -/
def neighbourAfter (inputs : List Input) : Option RoutingEntry :=
  (run step (Node.boot 0x01000000 0xFF000000 fun _ => 0) inputs).getRoutingEntry 0x02000000

theorem breaksExactly_iff_lists_lostNeighbour :
    ∃ hop, neighbourAfter lostNeighbour = some hop ∧
      (BreaksExactly hop (run step (Node.boot 0x01000000 0xFF000000 fun _ => 0) lostNeighbour)
          (step (run step (Node.boot 0x01000000 0xFF000000 fun _ => 0) lostNeighbour)
            ⟨.clear, .forwarded 0x06000000 0x03000000⟩) ↔
        (run step (Node.boot 0x01000000 0xFF000000 fun _ => 0) lostNeighbour).Lists hop) :=
  ⟨_, rfl, breaksExactly_iff_lists 0x01000000 0xFF000000 (fun _ => 0) lostNeighbour .clear
    0x06000000 0x03000000 _ ⟨_, rfl, rfl, rfl, rfl⟩⟩

/-- The route to one destination moves from the neighbour to another, that to a
    second one is over the neighbour, and the neighbour goes silent. -/
def movedRoute : List Input :=
  [receive 0x02000000 (replyAfter 1 0x03000000 5 0x01000000),
    receive 0x04000000 (replyAfter 1 0x03000000 7 0x01000000),
    receive 0x02000000 (replyAfter 1 0x05000000 5 0x01000000),
    ⟨.clear, .expire 0x02000000⟩]

/-- A packet for the second destination takes down the route that has moved. -/
theorem not_breaksExactly_movedRoute :
    ¬ ∀ (ip bcast : U32) (hello : Nat → Byte) (inputs : List Input) (env : Env)
        (src dest : U32) (hop : RoutingEntry),
      TakesLinkBreak (run step (Node.boot ip bcast hello) inputs) dest hop →
      BreaksExactly hop (run step (Node.boot ip bcast hello) inputs)
        (step (run step (Node.boot ip bcast hello) inputs) ⟨env, .forwarded src dest⟩) := by
  intro h
  have hexact := h 0x01000000 0xFF000000 (fun _ => 0) movedRoute .clear 0x06000000 0x05000000 _
    ⟨_, rfl, rfl, rfl, rfl⟩
  have hthrough := (hexact.broken 3 _ rfl).mp ⟨rfl, _, rfl, rfl⟩
  exact absurd hthrough (by decide)

end OpenManet
