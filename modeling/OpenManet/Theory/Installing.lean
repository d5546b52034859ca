import OpenManet.Core.Sections
import OpenManet.Theory.Requests

/-!
# What a Message Leaves of an Entry

A request and a reply each write one route in one section. What the handler does
besides, before the section and after it, touches the lists of an entry, the mark
of an active route and the state of a search, and nothing else. So whatever does not
depend on these is after the handler what the section has made of it.

## Main definitions

* `Unmarked`: A value read off an entry that does not depend on lists and marks.
* `afterPublish`: The node after the first section of a reply.
* `reverseTarget`, `forwardTarget`: The entry the route section writes to.

## Theorems

* `follows_entry`: What follows a route section leaves an entry as it is but for lists
  and marks.
* `recvNewRreq_entry`, `installForwardRoute_entry`: An entry after a route section and
  what follows it.
* `recvRrep_hello`, `recvRrep_route`: The sections of a reply.
-/

namespace OpenManet

/-- The value does not depend on the precursors, the mark of an active route and the
    state of a search. -/
def Unmarked {α : Type} (get : RoutingEntry → α) : Prop :=
  ∀ (e : RoutingEntry) precursors search sender active,
    get { e with precursorList := precursors, rreqSearch := search
                 rreqMessageSender := sender, activeRoute := active } = get e

section Entries

variable {α : Type} (get : RoutingEntry → α) (hget : Unmarked get)

include hget

/-- An operation that follows a route section leaves what is read off every entry. -/
theorem apply_follows_entry (o : Op) (hfollows : o.FollowsRoute) (n : Node) (d : U32) :
    ((o.apply n).getRoutingEntry d).map get = (n.getRoutingEntry d).map get := by
  -- The two writes that occur change the mark or the list of precursors.
  have hwrite : ∀ ip f, o.effect n = .update ip f → (∀ e, get (f e) = get e) →
      ((o.apply n).getRoutingEntry d).map get = (n.getRoutingEntry d).map get := by
    intro ip f heff hkeeps
    rw [Node.getRoutingEntry_eq, apply_slots, heff, ← Node.getRoutingEntry_eq]
    simp only [Effect.slot]
    split
    · rw [Option.map_map]
      exact congrArg (Option.map · _) (funext hkeeps)
    · rfl
  cases o with
  | activate ip =>
      refine hwrite ip _ rfl (fun e => ?_)
      rw [activate_eq]
      exact hget e e.precursorList e.rreqSearch e.rreqMessageSender _
  | write ip w =>
      cases w with
      | precursor p =>
          exact hwrite ip _ rfl
            (fun e => hget e _ e.rreqSearch e.rreqMessageSender e.activeRoute)
      | timer | stopTimer | searchNone | forgetRreqId => exact absurd hfollows id
  | writeSequenceNum | sendUnicast | sendBroadcast => rfl
  | _ => exact absurd hfollows id

theorem follows_entry (h : Handler) (n : Node)
    (hfollows : h.Meets Op.apply (fun o _ => o.FollowsRoute) n) (d : U32) :
    ((h.exec Op.apply n).1.getRoutingEntry d).map get = (n.getRoutingEntry d).map get :=
  Prog.exec_relation Op.apply (fun o _ => o.FollowsRoute)
    (fun n n' => (n'.getRoutingEntry d).map get = (n.getRoutingEntry d).map get)
    (fun _ => rfl) (fun _ _ _ hab hbc => hbc.trans hab)
    (fun o n ho => apply_follows_entry get hget o ho n d) h n hfollows

end Entries

/-! ### Route requests -/

/-- The entry the reverse-route section writes to. The hop count of `m` is
    incremented already. -/
def reverseTarget (env : Env) (s : U32) (m : RreqHeader) (n : Node) : RoutingEntry :=
  (n.getRoutingEntry m.srcIp).getD
    (freshEntry env m.srcIp m.srcSeq .seqValid s (m.hopCount.setWidth 32) 0)

/-- What `create_or_get_routing_entry` leaves to be found, and a write to it after. -/
theorem createThenWrite_getRoutingEntry (env : Env) (ip seq : U32) (v : SeqValid) (s h t : U32)
    (o : Op) (f : RoutingEntry → RoutingEntry) (n : Node)
    (heff : ∀ n', o.effect n' = .update ip f) (d : U32) :
    (o.apply ((Op.create env ip seq v s h t).apply n)).getRoutingEntry d =
      if slotOf d = slotOf ip then
        some (f ((n.getRoutingEntry ip).getD (freshEntry env ip seq v s h t)))
      else n.getRoutingEntry d := by
  rw [Node.getRoutingEntry_eq, apply_slots, apply_slots, heff]
  simp only [Op.effect, Effect.slot, freshEntry]
  by_cases hd : slotOf d = slotOf ip
  · rw [if_pos hd, if_pos hd, if_pos hd, hd]
    rfl
  · rw [if_neg hd, if_neg hd, if_neg hd]
    rfl

theorem recvNewRreq_entry {α : Type} (get : RoutingEntry → α) (hget : Unmarked get) (env : Env)
    (s : U32) (m : RreqHeader) (n : Node) (d : U32) :
    (((recvNewRreq env s m).exec Op.apply n).1.getRoutingEntry d).map get =
      if slotOf d = slotOf m.srcIp then
        some (get ((reverseTarget env s m n).reverseRoute env s m (n.isNew m.srcIp)))
      else (n.getRoutingEntry d).map get := by
  let n' := (Op.reverseRoute env s m (n.isNew m.srcIp)).apply
    ((Op.create env m.srcIp m.srcSeq .seqValid s (m.hopCount.setWidth 32) 0).apply n)
  have hexec : (recvNewRreq env s m).exec Op.apply n =
      (afterReverseRoute env s m n').exec Op.apply n' := rfl
  rw [hexec, follows_entry get hget _ n' (afterReverseRoute_follows env s m n' n') d]
  have hfound := createThenWrite_getRoutingEntry env m.srcIp m.srcSeq .seqValid s
    (m.hopCount.setWidth 32) 0 (.reverseRoute env s m (n.isNew m.srcIp)) _ n (fun _ => rfl) d
  rw [hfound]
  split <;> rfl

/-! ### Route replies -/

/-- The node after the first section of a reply. -/
def afterPublish (m : RrepHeader) (n : Node) : Node :=
  ((publishFound m acceptPacket).exec Op.apply n).1

/-- The entry the forward-route section writes to, and the section for hellos. The hop
    count of `m` is incremented already. -/
def forwardTarget (env : Env) (s : U32) (m : RrepHeader) (n : Node) : RoutingEntry :=
  (n.getRoutingEntry m.destIp).getD
    (freshEntry env m.destIp m.destSeq .seqValid s (m.hopCount.setWidth 32) m.lifetime)

/-- A hello goes on with its one section. -/
theorem recvRrep_hello (env : Env) (s : U32) (m : RrepHeader) (n : Node) (hhello : m.srcIp = 0) :
    (recvRrep env s m).exec Op.apply n =
      (recvHello env s (incrementHopRrep m)).exec Op.apply (afterPublish m n) := by
  unfold recvRrep
  rw [publishFound_exec, if_pos hhello]
  rfl

/-- Any other reply goes on with the previous hop and the destination. -/
theorem recvRrep_route (env : Env) (s : U32) (m : RrepHeader) (n : Node) (hroute : m.srcIp ≠ 0) :
    (recvRrep env s m).exec Op.apply n =
      (installForwardRoute env s (incrementHopRrep m)).exec Op.apply
        (afterPreviousHop env s m.destIp (afterPublish m n)) := by
  unfold recvRrep
  rw [publishFound_exec, if_neg hroute]
  rfl

/-- Publishing the outcome of a search changes the state of searches. -/
theorem afterPublish_entry {α : Type} (get : RoutingEntry → α) (hget : Unmarked get)
    (m : RrepHeader) (n : Node) (d : U32) :
    ((afterPublish m n).getRoutingEntry d).map get = (n.getRoutingEntry d).map get := by
  simp only [afterPublish, publishFound, Prog.exec]
  split
  · show (((Op.searchFound m.destIp).apply n).getRoutingEntry d).map get = _
    rw [Node.getRoutingEntry_eq, apply_slots]
    simp only [Op.effect, Effect.slot]
    split
    · rw [Option.map_map]
      exact congrArg (Option.map · _)
        (funext fun e => hget e e.precursorList .searchFound 0 e.activeRoute)
    · rfl
  · rfl

theorem afterPublish_isNew (m : RrepHeader) (n : Node) (d : U32) :
    (afterPublish m n).isNew d = n.isNew d := by
  have hsame := congrArg Option.isNone
    (afterPublish_entry (fun _ => ()) (fun _ _ _ _ _ => rfl) m n d)
  rw [Option.isNone_map, Option.isNone_map] at hsame
  exact hsame

theorem installForwardRoute_entry {α : Type} (get : RoutingEntry → α) (hget : Unmarked get)
    (env : Env) (s : U32) (m : RrepHeader) (n : Node) (d : U32) :
    (((installForwardRoute env s m).exec Op.apply n).1.getRoutingEntry d).map get =
      if slotOf d = slotOf m.destIp then
        some (get ((forwardTarget env s m n).forwardRoute env s m (n.isNew m.destIp)))
      else (n.getRoutingEntry d).map get := by
  let n' := (Op.forwardRoute env s m (n.isNew m.destIp)).apply
    ((Op.create env m.destIp m.destSeq .seqValid s (m.hopCount.setWidth 32) m.lifetime).apply n)
  have hexec : (installForwardRoute env s m).exec Op.apply n =
      (afterForwardRoute m).exec Op.apply n' := rfl
  rw [hexec, follows_entry get hget _ n' (afterForwardRoute_follows m n') d]
  have hfound := createThenWrite_getRoutingEntry env m.destIp m.destSeq .seqValid s
    (m.hopCount.setWidth 32) m.lifetime (.forwardRoute env s m (n.isNew m.destIp)) _ n
    (fun _ => rfl) d
  rw [hfound]
  split <;> rfl

theorem recvHello_entry (env : Env) (s : U32) (m : RrepHeader) (n : Node) (d : U32) :
    ((recvHello env s m).exec Op.apply n).1.getRoutingEntry d =
      if slotOf d = slotOf m.destIp then
        some ((forwardTarget env s m n).hello env m (n.isNew m.destIp))
      else n.getRoutingEntry d :=
  createThenWrite_getRoutingEntry env m.destIp m.destSeq .seqValid s (m.hopCount.setWidth 32)
    m.lifetime (.hello env m (n.isNew m.destIp)) _ n (fun _ => rfl) d

end OpenManet
