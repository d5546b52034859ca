import OpenManet.Theory.Answers
import OpenManet.Theory.BestRoute

/-!
# Passing a Search On

What one node of a search does: it hears a request, installs the route back to the
originator and passes the request on or, as the destination, answers it; later it hears
the reply, installs the route to the destination and passes the reply on to where the
request came from.

Nothing is asked of the rest of the table. Of the two entries at hand it is asked that
the message is taken: the originator's does not hold the id of the request and is not
better, and the destination's knows no fresher number than the reply brings. A request
heard from the originator itself finds the entry the previous-hop section has just made
for it, so what `malloc` has left in it is asked about, too.

## Main definitions

* `RoutingEntry.Leads`, `Node.HasRoute`: A route as the table and the kernel have it.
* `OpenToRequest`, `Welcomes`: The node takes a request.
* `atForward`: The node when a reply has written its route.
* `OpenToReply`, `TakesReplyFrom`: The node takes a reply.

## Theorems

* `atDecision_hasRoute`: The route back after a request.
* `relay_step`, `target_step`: What a node does with a request it takes.
* `atForward_hasRoute`: The route ahead after a reply.
* `originator_step`, `relay_reply_step`: What a node does with a reply it takes.
-/

namespace OpenManet

/-- A valid route to `dest` over `gateway`, with this number and so many hops. -/
structure RoutingEntry.Leads (dest gateway seq hops : U32) (e : RoutingEntry) : Prop where
  destIp : e.destIp = dest
  status : e.status = .routeValid
  route : e.route = (.seqValid, seq, hops, gateway)

/-- The table has this route, and the kernel forwards by it. -/
structure Node.HasRoute (dest gateway seq hops : U32) (n : Node) : Prop where
  table : ∃ e, n.getRoutingEntry dest = some e ∧ e.Leads dest gateway seq hops
  kernel : kernelRoute n.log dest = some gateway

/-- What `Leads` reads of an entry. -/
def RoutingEntry.line (e : RoutingEntry) : U32 × RouteStatus × SeqValid × U32 × U32 × U32 :=
  (e.destIp, e.status, e.route)

theorem line_unmarked : Unmarked RoutingEntry.line := fun _ _ _ _ _ => rfl

/-- Whoever reads the same line finds the same route. -/
theorem leads_of_line {dest gateway seq hops ip : U32} {n n' : Node}
    (hline : (n'.getRoutingEntry ip).map RoutingEntry.line =
      (n.getRoutingEntry ip).map RoutingEntry.line)
    (h : ∃ e, n.getRoutingEntry ip = some e ∧ e.Leads dest gateway seq hops) :
    ∃ e, n'.getRoutingEntry ip = some e ∧ e.Leads dest gateway seq hops := by
  rcases h with ⟨e, he, hleads⟩
  rw [he, Option.map_some] at hline
  rcases Option.map_eq_some_iff.mp hline with ⟨e', he', hsame⟩
  simp only [RoutingEntry.line, Prod.mk.injEq] at hsame
  exact ⟨e', he', hsame.1.trans hleads.destIp, hsame.2.1.trans hleads.status,
    hsame.2.2.trans hleads.route⟩

theorem Node.HasRoute.of_line {dest gateway seq hops : U32} {n n' : Node}
    (h : n.HasRoute dest gateway seq hops)
    (hline : (n'.getRoutingEntry dest).map RoutingEntry.line =
      (n.getRoutingEntry dest).map RoutingEntry.line)
    (hkernel : kernelRoute n'.log dest = kernelRoute n.log dest) :
    n'.HasRoute dest gateway seq hops :=
  ⟨leads_of_line hline h.table, hkernel.trans h.kernel⟩

theorem isValid_of_line (ip : U32) {n n' : Node}
    (hline : (n'.getRoutingEntry ip).map RoutingEntry.line =
      (n.getRoutingEntry ip).map RoutingEntry.line) : n'.isValid ip = n.isValid ip := by
  have hany : ∀ found : Option RoutingEntry, found.any (fun e => e.status = .routeValid) =
      (found.map RoutingEntry.line).any (fun l => l.2.1 = .routeValid) := by
    intro found
    cases found <;> rfl
  unfold Node.isValid
  rw [hany, hany, hline]

/-! ### A request -/

section Request

variable (env : Env) (s : U32) (m : RreqHeader) (n : Node)

/-- The originator's entry lets a request in as a new one and takes the route back: it
    holds another id and is worse, or is that very route. -/
structure OpenToRequest : Prop where
  unseen : ∀ e, n.getRoutingEntry m.srcIp = some e → e.rreqId ≠ m.rreqId
  /-- The entry made for the originator as the sender keeps what the block held. -/
  clear : wordAt (env.memory (.entry m.srcIp)) rreqIdWord ≠ m.rreqId
  own : ∀ e, n.getRoutingEntry m.srcIp = some e → e.destIp = m.srcIp
  better : ∀ e, n.getRoutingEntry m.srcIp = some e →
    fresherReverse (incrementHopRreq m) e = true ∨
      e.route = (.seqValid, m.srcSeq, (m.hopCount + 1).setWidth 32, s)

/-- A node takes a request that comes from another node and is about other nodes'
    addresses. -/
structure Welcomes : Prop extends OpenToRequest env s m n where
  sender : s ≠ n.ipAddress
  origin : m.srcIp ≠ n.ipAddress
  apart : m.srcIp = s ∨ slotOf m.srcIp ≠ slotOf s

variable {env s m n} (h : Welcomes env s m n)

include h

theorem Welcomes.not_dropped : ¬ dropped m (afterPreviousHop env s m.srcIp n) := by
  intro hdrop
  rcases dropped_holds m _ hdrop (by rw [afterPreviousHop_ipAddress]; exact h.origin)
    with ⟨e, he, hid⟩
  rw [afterPreviousHop_getRoutingEntry] at he
  by_cases hslot : slotOf m.srcIp = slotOf s
  · -- The sender is the originator, whose entry has just been found or made.
    have hs : m.srcIp = s := h.apart.resolve_right (not_not.mpr hslot)
    rw [if_pos hslot, Option.some.injEq] at he
    rcases previousHop_eq env (n.isNew s) (previousHopEntry env s n) m.srcIp with ⟨t, ht⟩
    have hidOf : e.rreqId = (previousHopEntry env s n).rreqId := by
      rw [← he, ht]
    rw [hidOf] at hid
    unfold previousHopEntry at hid
    cases hstored : n.getRoutingEntry s with
    | none =>
        rw [hstored, Option.getD_none] at hid
        exact h.clear (hs ▸ hid)
    | some e₀ =>
        rw [hstored, Option.getD_some] at hid
        exact h.unseen e₀ (hs ▸ hstored) hid
  · rw [if_neg hslot] at he
    exact h.unseen e he hid

/-- The entry the reverse-route section works on is the originator's, and the section
    makes the route back of it. -/
theorem Welcomes.reverse_leads :
    let n₁ := afterPreviousHop env s m.srcIp n
    ((reverseTarget env s (incrementHopRreq m) n₁).reverseRoute env s (incrementHopRreq m)
      (n₁.isNew m.srcIp)).Leads m.srcIp s m.srcSeq ((m.hopCount + 1).setWidth 32) := by
  intro n₁
  have htarget : (reverseTarget env s (incrementHopRreq m) n₁).destIp = m.srcIp ∧
      (n₁.isNew m.srcIp = true ∨
        fresherReverse (incrementHopRreq m) (reverseTarget env s (incrementHopRreq m) n₁) = true ∨
        (reverseTarget env s (incrementHopRreq m) n₁).route =
          (.seqValid, m.srcSeq, (m.hopCount + 1).setWidth 32, s)) := by
    unfold reverseTarget
    cases hfound : n₁.getRoutingEntry (incrementHopRreq m).srcIp with
    | none =>
        exact ⟨rfl, Or.inl (congrArg Option.isNone hfound)⟩
    | some e =>
        rw [Option.getD_some]
        rcases afterPreviousHop_found env s m.srcIp n m.srcIp e hfound with
          ⟨e₀, he₀, hsame⟩ | ⟨hslot, -, hdest, -, hinvalid⟩
        · refine ⟨hsame.destIp.trans (h.own e₀ he₀), Or.inr ?_⟩
          rcases h.better e₀ he₀ with hfresher | hroute
          · exact Or.inl ((hsame.fresherReverse_eq _).trans hfresher)
          · right
            rw [← hroute, RoutingEntry.route, RoutingEntry.route, hsame.seqValid, hsame.destSeq,
              hsame.hopCount, hsame.nextHop]
        · -- The entry has just been made for the sender, without a valid number.
          refine ⟨hdest.trans (h.apart.resolve_right (not_not.mpr hslot)).symm,
            Or.inr (Or.inl ?_)⟩
          unfold fresherReverse
          rw [decide_eq_true hinvalid, Bool.or_true, Bool.true_or]
  refine ⟨(reverseRoute_destIp _ _ _ _ _).trans htarget.1, (reverseRoute_up _ _ _ _ _).1, ?_⟩
  rw [reverseRoute_route]
  by_cases htaken : n₁.isNew m.srcIp = true ∨
      fresherReverse (incrementHopRreq m) (reverseTarget env s (incrementHopRreq m) n₁) = true
  · rw [if_pos htaken]
    rfl
  · rw [if_neg htaken]
    rcases htarget.2 with hnew | hfresher | hroute
    · exact absurd (Or.inl hnew) htaken
    · exact absurd (Or.inr hfresher) htaken
    · exact hroute

omit h in
theorem atDecision_getRoutingEntry (d : U32) :
    (atDecision env s m n).getRoutingEntry d =
      if slotOf d = slotOf m.srcIp then
        some ((reverseTarget env s (incrementHopRreq m)
          (afterPreviousHop env s m.srcIp n)).reverseRoute env s (incrementHopRreq m)
            ((afterPreviousHop env s m.srcIp n).isNew m.srcIp))
      else (afterPreviousHop env s m.srcIp n).getRoutingEntry d :=
  createThenWrite_getRoutingEntry env m.srcIp m.srcSeq .seqValid s
    ((incrementHopRreq m).hopCount.setWidth 32) 0 (.reverseRoute env s (incrementHopRreq m) _) _ _
    (fun _ => rfl) d

omit h in
theorem atDecision_log :
    (atDecision env s m n).log =
      .addUnicastRoutingEntry (reverseTarget env s (incrementHopRreq m)
        (afterPreviousHop env s m.srcIp n)).destIp s :: .addUnicastRoutingEntry s s :: n.log := by
  unfold atDecision afterReverse
  rw [apply_log, apply_log, afterPreviousHop_log, Op.calls, Node.whenFound,
    Node.getRoutingEntry_eq, apply_slots]
  simp only [Op.effect, Effect.slot, freshEntry, if_true]
  rfl

/-- The route back is there, for the table and the kernel. -/
theorem atDecision_hasRoute :
    (atDecision env s m n).HasRoute m.srcIp s m.srcSeq ((m.hopCount + 1).setWidth 32) := by
  have hleads := h.reverse_leads
  refine ⟨⟨_, ?_, hleads⟩, ?_⟩
  · rw [atDecision_getRoutingEntry, if_pos rfl]
  · rw [atDecision_log, kernelRoute_add, ← reverseRoute_destIp env s _ _ _, hleads.destIp,
      if_pos rfl]

/-- So is the neighbour the request came from. -/
theorem atDecision_sender_isValid : (atDecision env s m n).isValid s = true := by
  unfold Node.isValid
  rw [atDecision_getRoutingEntry]
  by_cases hs : slotOf s = slotOf m.srcIp
  · rw [if_pos hs, Option.any_some]
    exact decide_eq_true h.reverse_leads.status
  · rw [if_neg hs, afterPreviousHop_getRoutingEntry, if_pos rfl, Option.any_some]
    rcases previousHop_eq env (n.isNew s) (previousHopEntry env s n) m.srcIp with ⟨t, ht⟩
    rw [ht]
    rfl

omit h in
/-- The entries of everybody else are as they were. -/
theorem atDecision_others (d : U32) (hs : slotOf d ≠ slotOf s) (hsrc : slotOf d ≠ slotOf m.srcIp) :
    (atDecision env s m n).getRoutingEntry d = n.getRoutingEntry d := by
  rw [atDecision_getRoutingEntry, if_neg hsrc, afterPreviousHop_getRoutingEntry, if_neg hs]

/-- The request as a relay with this table passes it on. -/
def passedOnRreq (m : RreqHeader) (n : Node) : RreqHeader :=
  forwardedRreq (incrementHopRreq m) (n.getRoutingEntry m.destIp)

/-- A relay that has no answer passes the request on. -/
theorem relay_step (hdest : m.destIp ≠ n.ipAddress) (hs : slotOf m.destIp ≠ slotOf s)
    (hsrc : slotOf m.destIp ≠ slotOf m.srcIp)
    (hanswers : (n.getRoutingEntry m.destIp).any (answersFromTable m) = false)
    (httl : 1 < m.ttl) :
    step n { env := env, event := .control s (.rreq m) } =
      (atDecision env s m n).call (.sendBroadcast (.rreq (passedOnRreq m n))) := by
  have hfound : (atDecision env s m n).getRoutingEntry m.destIp = n.getRoutingEntry m.destIp :=
    atDecision_others m.destIp hs hsrc
  rw [step_rreq, if_neg h.sender, recvRreq_decides env s m n hdest h.not_dropped, hfound, hanswers,
    if_neg Bool.false_ne_true, if_pos httl, passedOnRreq, forwardedRreq_eq]

/-- The number and the reply of the destination. -/
def ownAnswer (env : Env) (m : RreqHeader) (n : Node) : RrepHeader :=
  generateRrepMessage (env.memory .rrep) 0 n.ipAddress
    (nextOwnSeq (incrementHopRreq m) n.sequenceNum) m.srcIp (toU32 myRouteTimeout)

/-- The destination counts the route back as active and answers. -/
theorem target_step (hdest : m.destIp = n.ipAddress) :
    step n { env := env, event := .control s (.rreq m) } =
      (Op.sendUnicast s (.rrep (ownAnswer env m n) [])).apply
        ((Op.writeSequenceNum (nextOwnSeq (incrementHopRreq m) n.sequenceNum)).apply
          ((Op.activate m.srcIp).apply (atDecision env s m n))) := by
  have hrest : (recvNewRreq env s (incrementHopRreq m)).exec Op.apply
      (afterPreviousHop env s m.srcIp n) =
      (afterReverseRoute env s (incrementHopRreq m) (atDecision env s m n)).exec Op.apply
        (atDecision env s m n) := rfl
  have hown : (atDecision env s m n).ipAddress = (incrementHopRreq m).destIp :=
    (atDecision_ipAddress env s m n).trans hdest.symm
  have hseq : ((Op.activate m.srcIp).apply (atDecision env s m n)).sequenceNum = n.sequenceNum := by
    rw [apply_sequenceNum]
    exact atDecision_sequenceNum env s m n
  have haddress : ((Op.activate m.srcIp).apply (atDecision env s m n)).ipAddress = n.ipAddress := by
    rw [apply_ipAddress]
    exact atDecision_ipAddress env s m n
  rw [step_rreq, if_neg h.sender, recvRreq_new env s m n h.not_dropped, hrest, afterReverseRoute,
    if_pos hown]
  unfold ownAnswer
  rw [← hseq, ← haddress]
  rfl

end Request

/-! ### A reply -/

/-- The node when a reply has written its route. -/
def atForward (env : Env) (s : U32) (m : RrepHeader) (n : Node) : Node :=
  let d := afterPreviousHop env s m.destIp (afterPublish m n)
  (Op.forwardRoute env s (incrementHopRrep m) (d.isNew m.destIp)).apply
    ((Op.create env m.destIp m.destSeq .seqValid s ((incrementHopRrep m).hopCount.setWidth 32)
      m.lifetime).apply d)

section Reply

variable (env : Env) (s : U32) (m : RrepHeader) (n : Node)

/-- The destination's entry knows no fresher number than the reply. -/
structure OpenToReply : Prop where
  own : ∀ e, n.getRoutingEntry m.destIp = some e → e.destIp = m.destIp
  fresh : ∀ e, n.getRoutingEntry m.destIp = some e →
    e.seqValid = .seqInvalid ∨ seqCompare m.destSeq e.destSeq ≥ 0

/-- A node takes a reply that comes from another node and is no hello. -/
structure TakesReplyFrom : Prop extends OpenToReply m n where
  sender : s ≠ n.ipAddress
  names : m.srcIp ≠ 0
  apart : m.destIp = s ∨ slotOf m.destIp ≠ slotOf s

theorem afterPublish_ipAddress : (afterPublish m n).ipAddress = n.ipAddress := by
  simp only [afterPublish, publishFound, Prog.exec]
  split
  · exact apply_ipAddress n (.searchFound m.destIp)
  · rfl

theorem afterPublish_log : (afterPublish m n).log = n.log := by
  simp only [afterPublish, publishFound, Prog.exec]
  split
  · exact apply_log n (.searchFound m.destIp)
  · rfl

theorem atForward_ipAddress : (atForward env s m n).ipAddress = n.ipAddress := by
  unfold atForward
  rw [apply_ipAddress, apply_ipAddress, afterPreviousHop_ipAddress, afterPublish_ipAddress]

/-- The entry of the destination after the section, and those of everybody else. -/
theorem atForward_getRoutingEntry (d : U32) :
    (atForward env s m n).getRoutingEntry d =
      if slotOf d = slotOf m.destIp then
        some ((forwardTarget env s (incrementHopRrep m) (afterPreviousHop env s m.destIp
          (afterPublish m n))).forwardRoute env s (incrementHopRrep m)
            ((afterPreviousHop env s m.destIp (afterPublish m n)).isNew m.destIp))
      else (afterPreviousHop env s m.destIp (afterPublish m n)).getRoutingEntry d :=
  createThenWrite_getRoutingEntry env m.destIp m.destSeq .seqValid s
    ((incrementHopRrep m).hopCount.setWidth 32) m.lifetime
    (.forwardRoute env s (incrementHopRrep m) _) _ _ (fun _ => rfl) d

/-- The section adds the route to the destination, once or twice. -/
theorem atForward_log :
    (atForward env s m n).log =
        .addUnicastRoutingEntry m.destIp s :: .addUnicastRoutingEntry s s :: n.log ∨
      (atForward env s m n).log =
        .addUnicastRoutingEntry m.destIp s :: .addUnicastRoutingEntry m.destIp s ::
          .addUnicastRoutingEntry s s :: n.log := by
  rcases Node.createOrGet_found env m.destIp m.destSeq .seqValid s
    ((incrementHopRrep m).hopCount.setWidth 32) m.lifetime
    (afterPreviousHop env s m.destIp (afterPublish m n)) with ⟨e, he⟩
  have hfound : ((Op.create env m.destIp m.destSeq .seqValid s
      ((incrementHopRrep m).hopCount.setWidth 32) m.lifetime).apply
        (afterPreviousHop env s m.destIp (afterPublish m n))).getRoutingEntry
      (incrementHopRrep m).destIp = some e := he
  unfold atForward
  rw [apply_log, apply_log, afterPreviousHop_log, afterPublish_log, Op.calls, Node.whenFound,
    hfound]
  simp only []
  split
  · exact Or.inr rfl
  · exact Or.inl rfl

theorem atForward_kernel (d : U32) :
    kernelRoute (atForward env s m n).log d =
      if d = m.destIp then some s else if d = s then some s else kernelRoute n.log d := by
  rcases atForward_log env s m n with hlog | hlog
  · rw [hlog, kernelRoute_add, kernelRoute_add]
  · rw [hlog, kernelRoute_add_twice, kernelRoute_add, kernelRoute_add]

/-- The entries of everybody else keep their route. -/
theorem atForward_others (d : U32) (hs : slotOf d ≠ slotOf s) (hdest : slotOf d ≠ slotOf m.destIp) :
    ((atForward env s m n).getRoutingEntry d).map RoutingEntry.line =
      (n.getRoutingEntry d).map RoutingEntry.line := by
  rw [atForward_getRoutingEntry, if_neg hdest, afterPreviousHop_getRoutingEntry, if_neg hs]
  exact afterPublish_entry _ line_unmarked m n d

variable {s m n} (h : TakesReplyFrom s m n)

include h

/-- The entry the forward-route section works on is the destination's, and the section
    makes the route ahead of it. -/
theorem TakesReplyFrom.forward_leads :
    let d := afterPreviousHop env s m.destIp (afterPublish m n)
    ((forwardTarget env s (incrementHopRrep m) d).forwardRoute env s (incrementHopRrep m)
      (d.isNew m.destIp)).Leads m.destIp s m.destSeq ((m.hopCount + 1).setWidth 32) := by
  intro d
  have htarget : (forwardTarget env s (incrementHopRrep m) d).destIp = m.destIp ∧
      (d.isNew m.destIp = true ∨
        fresherForward (incrementHopRrep m) (forwardTarget env s (incrementHopRrep m) d) =
          true) := by
    unfold forwardTarget
    cases hfound : d.getRoutingEntry (incrementHopRrep m).destIp with
    | none => exact ⟨rfl, Or.inl (congrArg Option.isNone hfound)⟩
    | some e =>
        rw [Option.getD_some, fresherForward_eq]
        rcases afterPreviousHop_found env s m.destIp _ m.destIp e hfound with
          ⟨e₀, he₀, hsame⟩ | ⟨hslot, -, hdest, -, hinvalid⟩
        · -- The first section changes the state of a search, which is not looked at here.
          have hread := afterPublish_entry (fun e => (e.destIp, e.seqValid, e.destSeq))
            (fun _ _ _ _ _ => rfl) m n m.destIp
          rw [he₀, Option.map_some] at hread
          rcases Option.map_eq_some_iff.mp hread.symm with ⟨e₁, he₁, hsame₁⟩
          simp only [Prod.mk.injEq] at hsame₁
          refine ⟨hsame.destIp.trans (hsame₁.1.symm.trans (h.own e₁ he₁)), Or.inr ?_⟩
          rw [Bool.or_eq_true, decide_eq_true_eq, decide_eq_true_eq, hsame.seqValid, hsame.destSeq,
            ← hsame₁.2.1, ← hsame₁.2.2]
          exact h.fresh e₁ he₁
        · refine ⟨hdest.trans (h.apart.resolve_right (not_not.mpr hslot)).symm, Or.inr ?_⟩
          rw [decide_eq_true hinvalid, Bool.true_or]
  refine ⟨(forwardRoute_destIp _ _ _ _ _).trans htarget.1, (forwardRoute_up _ _ _ _ _).1, ?_⟩
  rw [forwardRoute_route, if_pos htarget.2]
  rfl

/-- The route ahead is there, for the table and the kernel. -/
theorem atForward_hasRoute :
    (atForward env s m n).HasRoute m.destIp s m.destSeq ((m.hopCount + 1).setWidth 32) := by
  refine ⟨⟨_, ?_, h.forward_leads env⟩, ?_⟩
  · rw [atForward_getRoutingEntry, if_pos rfl]
  · rw [atForward_kernel, if_pos rfl]

/-- So is the neighbour the reply came from. -/
theorem atForward_sender_isValid : (atForward env s m n).isValid s = true := by
  unfold Node.isValid
  rw [atForward_getRoutingEntry]
  by_cases hs : slotOf s = slotOf m.destIp
  · rw [if_pos hs, Option.any_some]
    exact decide_eq_true (h.forward_leads env).status
  · rw [if_neg hs, afterPreviousHop_getRoutingEntry, if_pos rfl, Option.any_some]
    rcases previousHop_eq env ((afterPublish m n).isNew s)
      (previousHopEntry env s (afterPublish m n)) m.destIp with ⟨t, ht⟩
    rw [ht]
    rfl

/-- A node that takes a reply goes on behind the route section. -/
theorem TakesReplyFrom.step_eq :
    step n { env := env, event := .control s (.rrep m) } =
      ((afterForwardRoute (incrementHopRrep m)).exec Op.apply (atForward env s m n)).1 := by
  rw [step_rrep, if_neg h.sender, recvRrep_route env s m n h.names]
  rfl

/-- The originator of the search counts the route as active. -/
theorem originator_step (hown : m.srcIp = n.ipAddress) :
    step n { env := env, event := .control s (.rrep m) } =
      (Op.activate m.destIp).apply (atForward env s m n) := by
  have hsame : ((Op.activate m.destIp).apply (atForward env s m n)).ipAddress = m.srcIp := by
    rw [apply_ipAddress, atForward_ipAddress, hown]
  have hskip : ¬ ((Op.activate (incrementHopRrep m).destIp).apply
      (atForward env s m n)).ipAddress ≠ (incrementHopRrep m).srcIp := not_not.mpr hsame
  rw [h.step_eq]
  simp only [afterForwardRoute, Prog.exec, if_neg hskip]
  rfl

omit h in
/-- Operations that leave the state of searches alone leave that of an entry found. -/
theorem keepsSearch_found (o : Op) (hkeeps : o.KeepsSearch) (d : U32) (search : RreqStatus)
    (n : Node) (hn : ∃ e, n.getRoutingEntry d = some e ∧ e.rreqSearch = search) :
    ∃ e, (o.apply n).getRoutingEntry d = some e ∧ e.rreqSearch = search := by
  rcases hn with ⟨e, he, hsearch⟩
  have hstays : ∀ ip, o.effect n = .remove ip → slotOf d ≠ slotOf ip := by
    intro ip heff
    cases o with
    | removeEntry => exact absurd hkeeps id
    | _ => cases heff
  rcases entry_fate n o (slotOf d) e he hstays with hsame | ⟨ip, f, heff, -, hwritten⟩
  · exact ⟨e, hsame, hsearch⟩
  · exact ⟨f e, hwritten, (effect_rreqSearch n o hkeeps ip f heff e).trans hsearch⟩

/-- Whoever waits for the search reads that it is over. -/
theorem originator_searchAt (hown : m.srcIp = n.ipAddress)
    (hfound : (n.getRoutingEntry m.destIp).isSome = true) :
    (step n { env := env, event := .control s (.rrep m) }).searchAt m.destIp = .searchFound := by
  have hpublish : ∃ e, (afterPublish m n).getRoutingEntry m.destIp = some e ∧
      e.rreqSearch = .searchFound := by
    have hexec : afterPublish m n = (Op.searchFound m.destIp).apply n := by
      simp only [afterPublish, publishFound, Prog.exec]
      rw [if_pos ⟨hown.symm, hfound⟩]
      rfl
    rcases Option.isSome_iff_exists.mp hfound with ⟨e, he⟩
    refine ⟨e.searchFound, ?_, rfl⟩
    rw [Node.getRoutingEntry_eq] at he
    rw [hexec, Node.getRoutingEntry_eq, apply_slots]
    simp only [Op.effect, Effect.slot, if_true, he, Option.map_some]
  -- The sections behind it leave the outcome alone.
  have hkept : ∃ e, ((Op.activate m.destIp).apply (atForward env s m n)).getRoutingEntry m.destIp =
      some e ∧ e.rreqSearch = .searchFound := by
    have hmade := keepsSearch_found
      (.create env s 0 .seqInvalid s 0 (toU32 activeRouteTimeout)) trivial _ _ _ hpublish
    have hhop := keepsSearch_found
      (.previousHop env s m.destIp ((afterPublish m n).isNew s)) trivial _ _ _ hmade
    have hmade' := keepsSearch_found (.create env m.destIp m.destSeq .seqValid s
      ((incrementHopRrep m).hopCount.setWidth 32) m.lifetime) trivial _ _ _ hhop
    have hroute := keepsSearch_found (.forwardRoute env s (incrementHopRrep m)
      ((afterPreviousHop env s m.destIp (afterPublish m n)).isNew m.destIp)) trivial _ _ _ hmade'
    exact keepsSearch_found (.activate m.destIp) trivial _ _ _ hroute
  rcases hkept with ⟨e, he, hsearch⟩
  rw [originator_step env h hown, Node.searchAt, he]
  exact hsearch

omit h in
/-- What follows the route section leaves every route as it is. -/
theorem follows_line (o : Op) (hfollows : o.FollowsRoute) (n : Node) (d : U32) :
    ((o.apply n).getRoutingEntry d).map RoutingEntry.line =
      (n.getRoutingEntry d).map RoutingEntry.line :=
  apply_follows_entry _ line_unmarked o hfollows n d

/-- The node when a reply has been passed on to `back`, from the node behind its route
    section. -/
def afterPassingReply (m : RrepHeader) (ahead back : U32) (d : Node) : Node :=
  (Op.sendUnicast back (.rrep m [])).apply
    ((Op.write m.destIp (.precursor back)).apply
      ((Op.write m.srcIp (.precursor ahead)).apply
        ((Op.activate m.srcIp).apply ((Op.activate m.destIp).apply d))))

omit h in
theorem nextHopOf_of_leads {dest gateway seq hops : U32} {n : Node}
    (h : ∃ e, n.getRoutingEntry dest = some e ∧ e.Leads dest gateway seq hops) :
    n.nextHopOf dest = gateway := by
  rcases h with ⟨e, he, hleads⟩
  unfold Node.nextHopOf
  rw [he]
  exact congrArg (fun route => route.2.2.2) hleads.route

omit h in
/-- A reply is passed on along the route back, and each end is listed under the other. -/
theorem afterForwardRoute_exec (m : RrepHeader) (d : Node) (ahead back : U32)
    {seq hops seq' hops' : U32} (hother : d.ipAddress ≠ m.srcIp)
    (hahead : ∃ e, d.getRoutingEntry m.destIp = some e ∧ e.Leads m.destIp ahead seq hops)
    (hback : ∃ e, d.getRoutingEntry m.srcIp = some e ∧ e.Leads m.srcIp back seq' hops') :
    ((afterForwardRoute m).exec Op.apply d).1 = afterPassingReply m ahead back d := by
  let d₁ := (Op.activate m.destIp).apply d
  let d₂ := (Op.activate m.srcIp).apply d₁
  -- The marks are no part of a route.
  have h₁ : ∀ ip, (d₁.getRoutingEntry ip).map RoutingEntry.line =
      (d.getRoutingEntry ip).map RoutingEntry.line :=
    fun ip => follows_line (.activate m.destIp) trivial d ip
  have h₂ : ∀ ip, (d₂.getRoutingEntry ip).map RoutingEntry.line =
      (d.getRoutingEntry ip).map RoutingEntry.line :=
    fun ip => (follows_line (.activate m.srcIp) trivial d₁ ip).trans (h₁ ip)
  have hforeign : d₁.ipAddress ≠ m.srcIp := by
    rw [apply_ipAddress]
    exact hother
  have hfound : (d₁.getRoutingEntry m.srcIp).isSome = true := by
    rcases leads_of_line (h₁ m.srcIp) hback with ⟨e, he, -⟩
    rw [he]
    rfl
  have hexec : ((afterForwardRoute m).exec Op.apply d).1 =
      ((if d₁.ipAddress ≠ m.srcIp then forwardRrep m (.unlock (slotOf m.destIp) acceptPacket)
        else .unlock (slotOf m.destIp) acceptPacket).exec Op.apply d₁).1 := rfl
  have hforward : ((forwardRrep m (.unlock (slotOf m.destIp) acceptPacket)).exec Op.apply d₁).1 =
      ((if (d₁.getRoutingEntry m.srcIp).isSome then
        .lock (slotOf m.srcIp) <|
        .op (.activate m.srcIp) fun _ n =>
        .op (.write m.srcIp (.precursor (n.nextHopOf m.destIp))) fun _ _ =>
        .op (.write m.destIp (.precursor (n.nextHopOf m.srcIp))) fun _ _ =>
        .op (.sendUnicast (n.nextHopOf m.srcIp) (.rrep m [])) fun _ _ =>
        .unlock (slotOf m.srcIp) (.unlock (slotOf m.destIp) acceptPacket)
      else .unlock (slotOf m.destIp) acceptPacket : Handler).exec Op.apply d₁).1 := rfl
  rw [hexec, if_pos hforeign, hforward, if_pos hfound]
  show (Op.sendUnicast (d₂.nextHopOf m.srcIp) (.rrep m [])).apply
    ((Op.write m.destIp (.precursor (d₂.nextHopOf m.srcIp))).apply
      ((Op.write m.srcIp (.precursor (d₂.nextHopOf m.destIp))).apply d₂)) = _
  rw [nextHopOf_of_leads (leads_of_line (h₂ m.srcIp) hback),
    nextHopOf_of_leads (leads_of_line (h₂ m.destIp) hahead)]
  rfl

/-- A relay that takes a reply passes it on. -/
theorem relay_reply_step (hother : m.srcIp ≠ n.ipAddress) (hs : slotOf m.srcIp ≠ slotOf s)
    (hdest : slotOf m.srcIp ≠ slotOf m.destIp) (back : U32) {seq hops : U32}
    (hback : ∃ e, n.getRoutingEntry m.srcIp = some e ∧ e.Leads m.srcIp back seq hops) :
    step n { env := env, event := .control s (.rrep m) } =
      afterPassingReply (incrementHopRrep m) s back (atForward env s m n) := by
  rw [h.step_eq]
  refine afterForwardRoute_exec (incrementHopRrep m) _ s back ?_ (atForward_hasRoute env h).table
    (leads_of_line (atForward_others env s m n m.srcIp hs hdest) hback)
  rw [atForward_ipAddress]
  exact hother.symm

end Reply

/-! ### What is left when a reply has been passed on -/

section Passing

variable (m : RrepHeader) (ahead back : U32) (d : Node)

theorem afterPassingReply_line (ip : U32) :
    ((afterPassingReply m ahead back d).getRoutingEntry ip).map RoutingEntry.line =
      (d.getRoutingEntry ip).map RoutingEntry.line := by
  unfold afterPassingReply
  rw [follows_line (.sendUnicast back (.rrep m [])) trivial,
    follows_line (.write m.destIp (.precursor back)) trivial,
    follows_line (.write m.srcIp (.precursor ahead)) trivial,
    follows_line (.activate m.srcIp) trivial, follows_line (.activate m.destIp) trivial]

theorem afterPassingReply_log :
    (afterPassingReply m ahead back d).log = .sendUnicast back (.rrep m []) :: d.log := by
  unfold afterPassingReply
  rw [apply_log, apply_log, apply_log, apply_log, apply_log]
  rfl

/-- A precursor added later does not push out one that is listed. -/
theorem precursor_stays (ip p q d : U32) (n : Node)
    (h : ∀ e, n.getRoutingEntry d = some e → p ∈ e.precursorList) :
    ∀ e, ((Op.write ip (.precursor q)).apply n).getRoutingEntry d = some e →
      p ∈ e.precursorList := by
  intro e he
  rw [Node.getRoutingEntry_eq, apply_slots] at he
  simp only [Op.effect, Effect.slot] at he
  split at he
  · rcases Option.map_eq_some_iff.mp he with ⟨e₀, he₀, rfl⟩
    exact List.mem_append_left _ (h e₀ he₀)
  · exact h e he

/-- Each end is listed under the other. -/
theorem afterPassingReply_lists :
    (∀ e, (afterPassingReply m ahead back d).getRoutingEntry m.destIp = some e →
        back ∈ e.precursorList) ∧
      ∀ e, (afterPassingReply m ahead back d).getRoutingEntry m.srcIp = some e →
        ahead ∈ e.precursorList :=
  ⟨fun e he => mem_precursorList_of_write m.destIp back _ e he,
    precursor_stays m.destIp ahead back m.srcIp _
      (fun e he => mem_precursorList_of_write m.srcIp ahead _ e he)⟩

end Passing

end OpenManet
