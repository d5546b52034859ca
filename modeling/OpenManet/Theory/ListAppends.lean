import OpenManet.Theory.Relaying

/-!
# What a Message Appends to the Lists of Precursors

Precursors are appended at four places, two in `recv_rrep` and two in
`send_rrep_intermediate`, and nowhere else. Which addresses are appended, and to the lists
of which entries, can be told from the message and the table before it has arrived.

A reply that is passed on lists the next hop ahead under the originator and the next hop
back under the destination. The one ahead is the sender, unless the table knows a newer
number; the one back is what the table has. A request that is answered from the table
lists its sender under the destination, and the next hop of the destination under the
originator.

The slot of an address decides, not the address. The sender's entry has been made or made
valid when the others are looked at, and where originator and destination share a slot
the one section has written what the other reads.

## Main definitions

* `Node.precursorsOf`: The list for an address.
* `Node.hopAhead`, `Node.hopBack`: What a reply that is passed on lists.
* `Node.answerHop`: What a request answered from the table lists.
* `Node.appends`: What a step appends, by the table before it.

## Theorems

* `step_quiet_precursorsOf`: Any other step keeps a list or removes its entry.
* `recvRrep_appends`, `recvRreq_appends`: The lists after a reply and after a request.
* `step_precursorsOf`: The lists after any step.
-/

namespace OpenManet

/-- The precursors listed for an address, none without an entry. -/
def Node.precursorsOf (ip : U32) (n : Node) : List U32 :=
  ((n.getRoutingEntry ip).map (·.precursorList)).getD []

/-! ### By the table before the step -/

/-- The next hop to the destination of a reply when its route has been written or refused. -/
def Node.hopAhead (senderIp : U32) (m : RrepHeader) (n : Node) : U32 :=
  match n.getRoutingEntry m.destIp with
  | some e => if fresherForward (incrementHopRrep m) e then senderIp else e.nextHop
  | none => senderIp

/-- The next hop to the originator of a reply, if it has an entry: one that was there, or
    the one made for the sender. -/
def Node.hopBack (senderIp originIp : U32) (n : Node) : Option U32 :=
  match n.getRoutingEntry originIp with
  | some e => some e.nextHop
  | none => if slotOf originIp = slotOf senderIp then some senderIp else none

/-- The entries a reply that is passed on appends to, and what. -/
def rrepAppends (senderIp : U32) (m : RrepHeader) (n : Node) : List (U32 × U32) :=
  let ahead := n.hopAhead senderIp m
  -- In one slot both are one entry, with one next hop.
  match if slotOf m.srcIp = slotOf m.destIp then some ahead else n.hopBack senderIp m.srcIp with
  | some back => [(m.srcIp, ahead), (m.destIp, back)]
  | none => []

/-- The id held for the originator of a request; an entry made for the sender holds what
    its block contained. -/
def Node.heldId (env : Env) (senderIp originIp : U32) (n : Node) : Option U32 :=
  match n.getRoutingEntry originIp with
  | some e => some e.rreqId
  | none =>
    if slotOf originIp = slotOf senderIp then
      some (wordAt (env.memory (.entry senderIp)) rreqIdWord)
    else none

/-- A request is answered by a node that knows this number and is sure of it. -/
def answersWithSeq (m : RreqHeader) (destSeq : U32) : Bool :=
  m.flags &&& rreqDestOnly = 0 &&
    (m.flags &&& rreqUnknown ≠ 0 || seqCompare m.destSeq destSeq < 0)

/-- The originator's entry, if a request does not write its route over it. -/
def Node.routeBackKept (m : RreqHeader) (n : Node) : Option RoutingEntry :=
  (n.getRoutingEntry m.srcIp).filter fun e => !fresherReverse (incrementHopRreq m) e

/-- The next hop to the destination of a request, if it is answered from the table. -/
def Node.answerHop (senderIp : U32) (m : RreqHeader) (n : Node) : Option U32 :=
  if slotOf m.destIp = slotOf m.srcIp then
    -- The route back has been written over the entry asked about, or refused.
    match n.routeBackKept m with
    | some e => if answersWithSeq m e.destSeq then some e.nextHop else none
    | none => if answersWithSeq m m.srcSeq then some senderIp else none
  else
    match n.getRoutingEntry m.destIp with
    | some e =>
      -- The sender's entry is valid by then.
      if (e.status = .routeValid ∨ slotOf m.destIp = slotOf senderIp) ∧
          e.seqValid = .seqValid ∧ answersWithSeq m e.destSeq then some e.nextHop
      else none
    | none => none

/-- The entries a request for another node appends to, and what. -/
def rreqAppends (env : Env) (senderIp : U32) (m : RreqHeader) (n : Node) : List (U32 × U32) :=
  if n.heldId env senderIp m.srcIp = some m.rreqId then []
  else
    match n.answerHop senderIp m with
    | some ahead => [(m.destIp, senderIp), (m.srcIp, ahead)]
    | none => []

/-- The addresses a step appends to lists of precursors, each with the address whose entry
    it is appended to, in order. -/
def Node.appends (n : Node) (input : Input) : List (U32 × U32) :=
  match input.event with
  | .control s (.rreq m) =>
    if s = n.ipAddress ∨ m.srcIp = n.ipAddress ∨ m.destIp = n.ipAddress then []
    else rreqAppends input.env s m n
  | .control s (.rrep m) =>
    if s = n.ipAddress ∨ m.srcIp = 0 ∨ m.srcIp = n.ipAddress then [] else rrepAppends s m n
  | _ => []

/-- What of it goes to the entry for an address. -/
def appendedTo (ip : U32) (appended : List (U32 × U32)) : List U32 :=
  appended.filterMap fun a => if slotOf a.1 = slotOf ip then some a.2 else none

/-! ### One operation -/

/-- The operation appends to no list of precursors, and removes none. -/
def Op.KeepsPrecursors : Op → Prop
  | write _ (.precursor _) | removeEntry _ => False
  | _ => True

/-- Only an append changes the precursors of an entry. -/
theorem effect_precursors (n : Node) (o : Op) (ip : U32) (f : RoutingEntry → RoutingEntry)
    (heff : o.effect n = .update ip f) (e : RoutingEntry) :
    (f e).precursorList = e.precursorList ∨
      ∃ p, o = .write ip (.precursor p) ∧ (f e).precursorList = e.precursorList ++ [p] := by
  cases o with
  | previousHop env s l new =>
      cases heff
      rcases previousHop_eq env new e l with ⟨t, ht⟩
      rw [ht]
      exact Or.inl rfl
  | reverseRoute | hello | forwardRoute =>
      exact Or.inl (effect_frame n _ ip f heff trivial e).precursorList
  | activate ip =>
      cases heff
      rw [activate_eq]
      exact Or.inl rfl
  | write ip w =>
      cases heff
      -- The lists of precursors are appended to by this write alone.
      cases w with
      | precursor p => exact Or.inr ⟨p, rfl, rfl⟩
      | timer | stopTimer | searchNone | forgetRreqId => exact Or.inl rfl
  | searchFound | breakRoute | linkBreak | outgoingBreak | expireRoute | startSearch
  | searchFailed =>
      cases heff
      exact Or.inl rfl
  | create | removeEntry | beginWait | moveWaiter | moveHello | incrementSequenceNum
  | writeSequenceNum | sendRreq | sendUnicast | sendBroadcast => cases heff

theorem precursorsOf_apply (n : Node) (o : Op) (hkeeps : o.KeepsPrecursors) (ip : U32) :
    (o.apply n).precursorsOf ip = n.precursorsOf ip := by
  unfold Node.precursorsOf
  rw [Node.getRoutingEntry_eq, Node.getRoutingEntry_eq, apply_slots]
  cases heff : o.effect n with
  | keep => rfl
  | create fresh =>
      -- An entry that has just been made lists nobody.
      have hnone : fresh.precursorList = [] := by
        cases o with
        | create =>
            cases heff
            rfl
        | _ => cases heff
      simp only [Effect.slot]
      split
      · cases n.routes.slots (slotOf ip) with
        | none => exact hnone
        | some e => rfl
      · rfl
  | remove ip' =>
      cases o with
      | removeEntry => exact absurd hkeeps id
      | _ => cases heff
  | update ip' f =>
      have hlist : ∀ e, (f e).precursorList = e.precursorList := by
        intro e
        rcases effect_precursors n o ip' f heff e with hsame | ⟨p, rfl, -⟩
        · exact hsame
        · exact absurd hkeeps id
      simp only [Effect.slot]
      split
      · rw [Option.map_map]
        exact congrArg (fun g => ((n.routes.slots (slotOf ip)).map g).getD []) (funext hlist)
      · rfl

/-- An append to an entry that is there. -/
theorem precursorsOf_write (n : Node) (d p : U32) (hfound : (n.getRoutingEntry d).isSome = true)
    (ip : U32) :
    ((Op.write d (.precursor p)).apply n).precursorsOf ip =
      n.precursorsOf ip ++ appendedTo ip [(d, p)] := by
  rcases Option.isSome_iff_exists.mp hfound with ⟨e, he⟩
  rw [Node.getRoutingEntry_eq] at he
  unfold Node.precursorsOf
  rw [Node.getRoutingEntry_eq, Node.getRoutingEntry_eq, apply_slots]
  simp only [Op.effect, Effect.slot, appendedTo]
  by_cases hslot : slotOf ip = slotOf d
  · rw [if_pos hslot, hslot, he]
    simp only [List.filterMap_cons, if_true, List.filterMap_nil]
    rfl
  · have hother : ¬ slotOf d = slotOf ip := fun h => hslot h.symm
    simp only [if_neg hslot, List.filterMap_cons, if_neg hother, List.filterMap_nil,
      List.append_nil]

/-- A handler none of whose operations touches the precursors. -/
theorem exec_precursorsOf (h : Handler) (n : Node)
    (hkeeps : h.Meets Op.apply (fun o _ => o.KeepsPrecursors) n) (ip : U32) :
    (h.exec Op.apply n).1.precursorsOf ip = n.precursorsOf ip :=
  Prog.exec_relation Op.apply (fun o _ => o.KeepsPrecursors)
    (fun n n' => n'.precursorsOf ip = n.precursorsOf ip) (fun _ => rfl)
    (fun _ _ _ hab hbc => hbc.trans hab) (fun o n ho => precursorsOf_apply n o ho ip) h n hkeeps

/-! ### Steps that append nothing -/

/-- Where the guards rule out an append, a list stays or goes with its entry. -/
theorem step_quiet_precursorsOf (n : Node) (input : Input)
    (hquiet : ∀ d p n', n'.ipAddress = n.ipAddress →
      ¬ (Op.write d (.precursor p)).Guard input.event n') (ip : U32) :
    (step n input).precursorsOf ip = n.precursorsOf ip ∨ (step n input).precursorsOf ip = [] := by
  have hmeets := Prog.Meets.with_invariant (fun n' : Node => n'.ipAddress = n.ipAddress)
    (fun o n' hip _ => (apply_ipAddress n' o).trans hip) input.handler n rfl
    (handler_guard n input)
  refine Prog.exec_relation Op.apply _
    (fun n n' => n'.precursorsOf ip = n.precursorsOf ip ∨ n'.precursorsOf ip = [])
    (fun _ => Or.inl rfl) (fun _ _ _ hab hbc => ?_) (fun o n' ho => ?_) input.handler n hmeets
  · rcases hbc with hsame | hgone
    · rw [hsame]
      exact hab
    · exact Or.inr hgone
  · by_cases hkeeps : o.KeepsPrecursors
    · exact Or.inl (precursorsOf_apply n' o hkeeps ip)
    cases o with
    | write d w =>
        cases w with
        | precursor p => exact absurd ho.1 (hquiet d p n' ho.2)
        | timer | stopTimer | searchNone | forgetRreqId => exact absurd trivial hkeeps
    | removeEntry d =>
        unfold Node.precursorsOf
        rw [Node.getRoutingEntry_eq, Node.getRoutingEntry_eq, apply_slots]
        simp only [Op.effect, Effect.slot]
        split
        · exact Or.inr rfl
        · exact Or.inl rfl
    | _ => exact absurd trivial hkeeps

/-! ### Replies -/

section Reply

variable (env : Env) (s : U32) (m : RrepHeader) (n : Node)

theorem afterPreviousHop_precursorsOf (listed ip : U32) :
    (afterPreviousHop env s listed n).precursorsOf ip = n.precursorsOf ip := by
  unfold afterPreviousHop
  rw [precursorsOf_apply _ (.previousHop env s listed (n.isNew s)) trivial,
    precursorsOf_apply _ (.create env s 0 .seqInvalid s 0 (toU32 activeRouteTimeout)) trivial]

theorem atForward_precursorsOf (ip : U32) :
    (atForward env s m n).precursorsOf ip = n.precursorsOf ip := by
  have hpublish : (afterPublish m n).precursorsOf ip = n.precursorsOf ip := by
    refine exec_precursorsOf (publishFound m acceptPacket) n ?_ ip
    simp only [publishFound, locked, Prog.Meets]
    split
    · exact ⟨trivial, trivial⟩
    · trivial
  rw [← hpublish, ← afterPreviousHop_precursorsOf env s (afterPublish m n) m.destIp ip]
  unfold atForward
  simp only []
  rw [precursorsOf_apply _ (.forwardRoute env s (incrementHopRrep m) _) trivial,
    precursorsOf_apply _ (.create env m.destIp m.destSeq .seqValid s _ m.lifetime) trivial]

theorem nextHop_unmarked : Unmarked RoutingEntry.nextHop := fun _ _ _ _ _ => rfl

/-- A value that the previous-hop section does not write is found as it was before, or is
    that of the sender's new entry. -/
theorem afterPreviousHop_reads {α : Type} (get : RoutingEntry → α)
    (hget : ∀ (e : RoutingEntry) hops t, get { e with
      status := .routeValid, nextHopFor := hops, timeOut := t, expirationThread := true } = get e)
    (listed d : U32) :
    ((afterPreviousHop env s listed n).getRoutingEntry d).map get =
      ((n.getRoutingEntry d).map get).or (if slotOf d = slotOf s then
        some (get (freshEntry env s 0 .seqInvalid s 0 (toU32 activeRouteTimeout))) else none) := by
  rw [afterPreviousHop_getRoutingEntry]
  by_cases hslot : slotOf d = slotOf s
  · rcases previousHop_eq env (n.isNew s) (previousHopEntry env s n) listed with ⟨t, ht⟩
    rw [if_pos hslot, ht, if_pos hslot, Option.map_some, hget, previousHopEntry,
      Node.getRoutingEntry_eq n d, hslot, ← Node.getRoutingEntry_eq]
    cases n.getRoutingEntry s <;> rfl
  · rw [if_neg hslot, if_neg hslot, Option.or_none]

theorem afterPreviousHop_hopBack (listed d : U32) :
    ((afterPreviousHop env s listed n).getRoutingEntry d).map (·.nextHop) = n.hopBack s d := by
  rw [afterPreviousHop_reads env s n _ (fun _ _ _ => rfl), Node.hopBack]
  cases n.getRoutingEntry d <;> rfl

/-- A reply that this node has not asked for has nothing to publish. -/
theorem afterPublish_other (hother : m.srcIp ≠ n.ipAddress) : afterPublish m n = n := by
  simp only [afterPublish, publishFound, Prog.exec]
  rw [if_neg fun h => hother h.1.symm]
  rfl

theorem atForward_hopAhead (hother : m.srcIp ≠ n.ipAddress) :
    ((atForward env s m n).getRoutingEntry m.destIp).map (·.nextHop) =
      some (n.hopAhead s m) := by
  rw [atForward_getRoutingEntry, if_pos rfl, afterPublish_other m n hother, Option.map_some]
  let d := afterPreviousHop env s m.destIp n
  have hroute := congrArg (fun route => route.2.2.2) (forwardRoute_route env s (incrementHopRrep m)
    (d.isNew m.destIp) (forwardTarget env s (incrementHopRrep m) d))
  refine congrArg some (hroute.trans ?_)
  unfold Node.hopAhead
  cases hstored : n.getRoutingEntry m.destIp with
  | some e₀ =>
      rcases afterPreviousHop_kept env s m.destIp n m.destIp e₀ hstored with ⟨e, he, hsame⟩
      have hold : d.isNew m.destIp = false := congrArg Option.isNone he
      have hfound : d.getRoutingEntry (incrementHopRrep m).destIp = some e := he
      simp only [forwardTarget, hold, hfound, Bool.false_eq_true, false_or, Option.getD_some,
        hsame.fresherForward_eq]
      split
      · rfl
      · exact hsame.nextHop
  | none =>
      -- The route is taken: its entry is new, or the one just made for the sender.
      have htaken : d.isNew m.destIp = true ∨ fresherForward (incrementHopRrep m)
          (forwardTarget env s (incrementHopRrep m) d) = true := by
        cases hfound : d.getRoutingEntry m.destIp with
        | none => exact Or.inl (congrArg Option.isNone hfound)
        | some e =>
            rcases afterPreviousHop_found env s m.destIp n m.destIp e hfound with
              ⟨e₀, he₀, -⟩ | ⟨-, -, -, -, hinvalid⟩
            · cases hstored.symm.trans he₀
            · have htarget : forwardTarget env s (incrementHopRrep m) d = e := by
                rw [forwardTarget, show d.getRoutingEntry (incrementHopRrep m).destIp = some e from
                  hfound, Option.getD_some]
              rw [htarget, fresherForward_eq, hinvalid]
              exact Or.inr rfl
      rw [if_pos htaken]

/-- The originator's entry behind the route section, and its next hop. -/
theorem atForward_hopBack (hother : m.srcIp ≠ n.ipAddress) :
    ((atForward env s m n).getRoutingEntry m.srcIp).map (·.nextHop) =
      if slotOf m.srcIp = slotOf m.destIp then some (n.hopAhead s m)
      else n.hopBack s m.srcIp := by
  by_cases hshared : slotOf m.srcIp = slotOf m.destIp
  · rw [if_pos hshared, ← atForward_hopAhead env s m n hother, Node.getRoutingEntry_eq, hshared,
      ← Node.getRoutingEntry_eq]
  · rw [if_neg hshared, atForward_getRoutingEntry, if_neg hshared, afterPublish_other m n hother]
    exact afterPreviousHop_hopBack env s n m.destIp m.srcIp

theorem nextHopOf_of_map (d hop : U32) (n : Node)
    (h : (n.getRoutingEntry d).map (·.nextHop) = some hop) : n.nextHopOf d = hop := by
  rcases Option.map_eq_some_iff.mp h with ⟨e, he, hhop⟩
  unfold Node.nextHopOf
  rw [he]
  exact hhop

theorem isSome_of_map (d hop : U32) (n : Node)
    (h : (n.getRoutingEntry d).map (·.nextHop) = some hop) :
    (n.getRoutingEntry d).isSome = true := by
  rcases Option.map_eq_some_iff.mp h with ⟨e, he, -⟩
  rw [he]
  rfl

theorem appendedTo_pair (ip : U32) (a b : U32 × U32) :
    appendedTo ip [a, b] = appendedTo ip [a] ++ appendedTo ip [b] := by
  unfold appendedTo
  rw [← List.filterMap_append]
  rfl

/-- Passing a reply on lists each end's next hop under the other. -/
theorem forwardRrep_precursorsOf (ahead back : U32) (next : Handler) (d : Node)
    (hahead : (d.getRoutingEntry m.destIp).map (·.nextHop) = some ahead)
    (hback : (d.getRoutingEntry m.srcIp).map (·.nextHop) = some back)
    (hnext : ∀ n, next.Meets Op.apply (fun o _ => o.KeepsPrecursors) n) (ip : U32) :
    ((forwardRrep m next).exec Op.apply d).1.precursorsOf ip =
      d.precursorsOf ip ++ appendedTo ip [(m.srcIp, ahead), (m.destIp, back)] := by
  let d₁ := (Op.activate m.srcIp).apply d
  let d₂ := (Op.write m.srcIp (.precursor ahead)).apply d₁
  let d₃ := (Op.write m.destIp (.precursor back)).apply d₂
  -- Neither the mark nor the lists are part of a next hop.
  have h₁ : ∀ ip, (d₁.getRoutingEntry ip).map (·.nextHop) =
      (d.getRoutingEntry ip).map (·.nextHop) :=
    apply_follows_entry _ nextHop_unmarked (.activate m.srcIp) trivial d
  have h₂ : ∀ ip, (d₂.getRoutingEntry ip).map (·.nextHop) =
      (d₁.getRoutingEntry ip).map (·.nextHop) :=
    apply_follows_entry _ nextHop_unmarked (.write m.srcIp (.precursor ahead)) trivial d₁
  have hexec : ((forwardRrep m next).exec Op.apply d).1 =
      (next.exec Op.apply ((Op.sendUnicast back (.rrep m [])).apply d₃)).1 := by
    simp only [forwardRrep, Prog.exec]
    rw [if_pos (isSome_of_map m.srcIp back d hback)]
    simp only [Prog.exec]
    rw [show Node.nextHopOf m.destIp ((Op.activate m.srcIp).apply d) = ahead from
      nextHopOf_of_map _ _ d₁ ((h₁ m.destIp).trans hahead),
      show Node.nextHopOf m.srcIp ((Op.activate m.srcIp).apply d) = back from
      nextHopOf_of_map _ _ d₁ ((h₁ m.srcIp).trans hback)]
  have hsrc := isSome_of_map m.srcIp back d₁ ((h₁ m.srcIp).trans hback)
  have hdest := isSome_of_map m.destIp ahead d₂
    ((h₂ m.destIp).trans ((h₁ m.destIp).trans hahead))
  rw [hexec, exec_precursorsOf next _ (hnext _) ip,
    precursorsOf_apply d₃ (.sendUnicast back (.rrep m [])) trivial,
    precursorsOf_write d₂ m.destIp back hdest, precursorsOf_write d₁ m.srcIp ahead hsrc,
    precursorsOf_apply d (.activate m.srcIp) trivial, appendedTo_pair, List.append_assoc]

/-- The lists after a reply that is neither a hello nor for this node. -/
theorem recvRrep_appends (hroute : m.srcIp ≠ 0) (hother : m.srcIp ≠ n.ipAddress) (ip : U32) :
    ((recvRrep env s m).exec Op.apply n).1.precursorsOf ip =
      n.precursorsOf ip ++ appendedTo ip (rrepAppends s m n) := by
  let d := (Op.activate m.destIp).apply (atForward env s m n)
  have hforeign : d.ipAddress ≠ (incrementHopRrep m).srcIp := by
    rw [apply_ipAddress, atForward_ipAddress]
    exact hother.symm
  have hexec : ((recvRrep env s m).exec Op.apply n).1 =
      ((forwardRrep (incrementHopRrep m) (.unlock (slotOf m.destIp) acceptPacket)).exec Op.apply
        d).1 := by
    rw [recvRrep_route env s m n hroute]
    show ((if d.ipAddress ≠ (incrementHopRrep m).srcIp then
        forwardRrep (incrementHopRrep m) (.unlock (slotOf m.destIp) acceptPacket)
      else .unlock (slotOf m.destIp) acceptPacket).exec Op.apply d).1 = _
    rw [if_pos hforeign]
  have hhop : ∀ ip, (d.getRoutingEntry ip).map (·.nextHop) =
      ((atForward env s m n).getRoutingEntry ip).map (·.nextHop) :=
    apply_follows_entry _ nextHop_unmarked (.activate m.destIp) trivial _
  have hahead := (hhop m.destIp).trans (atForward_hopAhead env s m n hother)
  have hback := (hhop m.srcIp).trans (atForward_hopBack env s m n hother)
  have hlists : d.precursorsOf ip = n.precursorsOf ip :=
    (precursorsOf_apply _ (.activate m.destIp) trivial ip).trans
      (atForward_precursorsOf env s m n ip)
  rw [hexec, ← hlists]
  cases hfound : (if slotOf m.srcIp = slotOf m.destIp then some (n.hopAhead s m)
      else n.hopBack s m.srcIp) with
  | some back =>
      have happends : rrepAppends s m n = [(m.srcIp, n.hopAhead s m), (m.destIp, back)] := by
        simp only [rrepAppends, hfound]
      rw [hfound] at hback
      rw [happends]
      exact forwardRrep_precursorsOf (incrementHopRrep m) _ back
        (.unlock (slotOf m.destIp) acceptPacket) d hahead hback (fun _ => trivial) ip
  | none =>
      -- The node does not know the originator, and passes nothing on.
      have happends : rrepAppends s m n = [] := by
        simp only [rrepAppends, hfound]
      have hnone : ¬ (d.getRoutingEntry (incrementHopRrep m).srcIp).isSome = true := by
        rw [hfound] at hback
        rw [show d.getRoutingEntry (incrementHopRrep m).srcIp = none from
          Option.map_eq_none_iff.mp hback]
        exact Bool.false_ne_true
      rw [happends]
      simp only [forwardRrep, Prog.exec]
      rw [if_neg hnone]
      exact (List.append_nil _).symm

end Reply

/-! ### Requests -/

section Request

variable (env : Env) (s : U32) (m : RreqHeader) (n : Node)

theorem atDecision_precursorsOf (ip : U32) :
    (atDecision env s m n).precursorsOf ip = n.precursorsOf ip := by
  rw [← afterPreviousHop_precursorsOf env s n m.srcIp ip]
  unfold atDecision afterReverse
  rw [precursorsOf_apply _ (.reverseRoute env s (incrementHopRreq m) _) trivial,
    precursorsOf_apply _ (.create env _ _ .seqValid s _ 0) trivial]

theorem afterPreviousHop_heldId (listed d : U32) :
    ((afterPreviousHop env s listed n).getRoutingEntry d).map (·.rreqId) = n.heldId env s d := by
  rw [afterPreviousHop_reads env s n _ (fun _ _ _ => rfl), Node.heldId]
  cases n.getRoutingEntry d <;> rfl

/-- A request for another node is dropped for the id the entry holds. -/
theorem dropped_iff_heldId (hsrc : m.srcIp ≠ n.ipAddress) (hdest : m.destIp ≠ n.ipAddress) :
    dropped m (afterPreviousHop env s m.srcIp n) ↔ n.heldId env s m.srcIp = some m.rreqId := by
  have hown : (afterPreviousHop env s m.srcIp n).ipAddress = n.ipAddress :=
    afterPreviousHop_ipAddress env s m.srcIp n
  rw [← afterPreviousHop_heldId env s n m.srcIp m.srcIp]
  constructor
  · intro hdropped
    rcases dropped_holds m _ hdropped (hown ▸ hsrc) with ⟨e, he, hid⟩
    rw [he, Option.map_some, hid]
  · intro hheld
    rcases Option.map_eq_some_iff.mp hheld with ⟨e, he, hid⟩
    refine Or.inr ?_
    rw [he, Option.any_some, isDuplicate, if_pos ⟨hid, hown ▸ hdest.symm⟩]

theorem answersFromTable_eq (e : RoutingEntry) :
    answersFromTable m e =
      (decide (e.status = .routeValid) && decide (e.seqValid = .seqValid) &&
        answersWithSeq m e.destSeq) := by
  unfold answersFromTable knowsFresher answersWithSeq
  generalize decide (m.flags &&& rreqDestOnly = 0) = a
  generalize decide (e.status = .routeValid) = b
  generalize decide (e.seqValid = .seqValid) = c
  cases a <;> cases b <;> cases c <;> rfl

/-- The originator's entry behind the route section: valid, with the number and the next hop
    it had, or with those of the request. -/
theorem atDecision_originator :
    ∃ e, (atDecision env s m n).getRoutingEntry m.srcIp = some e ∧ e.status = .routeValid ∧
      e.seqValid = .seqValid ∧ (e.destSeq, e.nextHop) =
        match n.routeBackKept m with
        | some e₀ => (e₀.destSeq, e₀.nextHop)
        | none => (m.srcSeq, s) := by
  let d := afterPreviousHop env s m.srcIp n
  let target := reverseTarget env s (incrementHopRreq m) d
  let e := target.reverseRoute env s (incrementHopRreq m) (d.isNew m.srcIp)
  have hroute : e.route = if d.isNew m.srcIp = true ∨
      fresherReverse (incrementHopRreq m) target = true then
        (.seqValid, m.srcSeq, (incrementHopRreq m).hopCount.setWidth 32, s)
      else target.route := reverseRoute_route _ _ _ _ _
  have hread : ∀ v seq hops hop, e.route = (v, seq, hops, hop) →
      e.seqValid = v ∧ (e.destSeq, e.nextHop) = (seq, hop) := by
    intro v seq hops hop h
    simp only [RoutingEntry.route, Prod.mk.injEq] at h
    exact ⟨h.1, by rw [h.2.1, h.2.2.2]⟩
  refine ⟨e, ?_, (reverseRoute_up _ _ _ _ _).1, ?_⟩
  · rw [atDecision_getRoutingEntry, if_pos rfl]
  unfold Node.routeBackKept
  cases hstored : n.getRoutingEntry m.srcIp with
  | none =>
      -- The entry is new, or the one just made for the sender, without a valid number.
      have htaken : d.isNew m.srcIp = true ∨
          fresherReverse (incrementHopRreq m) target = true := by
        cases hfound : d.getRoutingEntry m.srcIp with
        | none => exact Or.inl (congrArg Option.isNone hfound)
        | some e₁ =>
            rcases afterPreviousHop_found env s m.srcIp n m.srcIp e₁ hfound with
              ⟨e₀, he₀, -⟩ | ⟨-, -, -, -, hinvalid⟩
            · cases hstored.symm.trans he₀
            · have htarget : target = e₁ := by
                rw [show target = (d.getRoutingEntry (incrementHopRreq m).srcIp).getD _ from rfl,
                  show d.getRoutingEntry (incrementHopRreq m).srcIp = some e₁ from hfound,
                  Option.getD_some]
              rw [htarget, fresherReverse, decide_eq_true hinvalid, Bool.or_true, Bool.true_or]
              exact Or.inr rfl
      rw [if_pos htaken] at hroute
      exact hread _ _ _ _ hroute
  | some e₀ =>
      rcases afterPreviousHop_kept env s m.srcIp n m.srcIp e₀ hstored with ⟨e₁, he₁, hsame⟩
      have hold : d.isNew m.srcIp = false := congrArg Option.isNone he₁
      have htarget : target = e₁ := by
        rw [show target = (d.getRoutingEntry (incrementHopRreq m).srcIp).getD _ from rfl,
          show d.getRoutingEntry (incrementHopRreq m).srcIp = some e₁ from he₁, Option.getD_some]
      rw [hold, htarget, hsame.fresherReverse_eq] at hroute
      simp only [Bool.false_eq_true, false_or] at hroute
      by_cases hfresher : fresherReverse (incrementHopRreq m) e₀ = true
      · rw [if_pos hfresher] at hroute
        simp only [Option.filter_some, hfresher, Bool.not_true, Bool.false_eq_true, if_false]
        exact hread _ _ _ _ hroute
      · rw [if_neg hfresher] at hroute
        rw [Bool.not_eq_true] at hfresher
        simp only [Option.filter_some, hfresher, Bool.not_false, if_true]
        rcases hread _ _ _ _ hroute with ⟨hvalid, hrest⟩
        refine ⟨?_, by rw [hrest, hsame.destSeq, hsame.nextHop]⟩
        -- A number that is not valid would have been replaced.
        cases hseq : e₁.seqValid with
        | seqValid => exact hvalid.trans hseq
        | seqInvalid =>
            rw [fresherReverse, decide_eq_true (hsame.seqValid.symm.trans hseq), Bool.or_true,
              Bool.true_or] at hfresher
            cases hfresher

/-- The entry a node answers from is told by the table before the request. -/
theorem atDecision_answerHop :
    (((atDecision env s m n).getRoutingEntry m.destIp).filter (answersFromTable m)).map
      (·.nextHop) = n.answerHop s m := by
  unfold Node.answerHop
  by_cases hshared : slotOf m.destIp = slotOf m.srcIp
  · rcases atDecision_originator env s m n with ⟨e, he, hvalid, hseq, hread⟩
    rw [if_pos hshared, Node.getRoutingEntry_eq, hshared, ← Node.getRoutingEntry_eq, he,
      Option.filter_some, answersFromTable_eq, decide_eq_true hvalid, decide_eq_true hseq,
      Bool.true_and, Bool.true_and]
    cases hstored : n.routeBackKept m with
    | some e₀ =>
        rw [hstored, Prod.mk.injEq] at hread
        simp only [hread.1]
        split
        · rw [Option.map_some, hread.2]
        · rfl
    | none =>
        rw [hstored, Prod.mk.injEq] at hread
        simp only [hread.1]
        split
        · rw [Option.map_some, hread.2]
        · rfl
  · rw [if_neg hshared, atDecision_getRoutingEntry, if_neg hshared,
      afterPreviousHop_getRoutingEntry]
    by_cases hslot : slotOf m.destIp = slotOf s
    · -- The sender's entry has just been made valid, or made without a valid number.
      rcases previousHop_eq env (n.isNew s) (previousHopEntry env s n) m.srcIp with ⟨t, ht⟩
      rw [if_pos hslot, ht, Option.filter_some, answersFromTable_eq, previousHopEntry,
        Node.getRoutingEntry_eq n m.destIp, hslot, ← Node.getRoutingEntry_eq]
      cases hfound : n.getRoutingEntry s with
      | none => rfl
      | some e =>
          simp only [Option.getD_some, decide_true, Bool.true_and, or_true, true_and,
            Bool.and_eq_true, decide_eq_true_eq]
          split <;> rfl
    · rw [if_neg hslot]
      cases hfound : n.getRoutingEntry m.destIp with
      | none => rfl
      | some e =>
          simp only [Option.filter_some, answersFromTable_eq, hslot, or_false, Bool.and_eq_true,
            decide_eq_true_eq, and_assoc]
          split <;> rfl

/-- The lists after an answer from the table. -/
theorem answer_precursorsOf (d : Node) (e : RoutingEntry)
    (he : d.getRoutingEntry m.destIp = some e)
    (hsrc : (d.getRoutingEntry m.srcIp).isSome = true) (ip : U32) :
    ((sendRrepIntermediate env m s acceptPacket).exec Op.apply d).1.precursorsOf ip =
      d.precursorsOf ip ++ appendedTo ip [(m.destIp, s), (m.srcIp, e.nextHop)] := by
  have hdest : (d.getRoutingEntry m.destIp).isSome = true := by
    rw [he]
    rfl
  have hsrc' : (((Op.sendUnicast s (intermediateRrep env m e)).apply
      ((Op.write m.destIp (.precursor s)).apply d)).getRoutingEntry m.srcIp).isSome = true := by
    have hstays := apply_follows_entry _ nextHop_unmarked (.write m.destIp (.precursor s)) trivial
      d m.srcIp
    have hsome := congrArg Option.isSome hstays
    rw [Option.isSome_map, Option.isSome_map] at hsome
    exact hsome.trans hsrc
  have hafter : (afterAnswer env m s e d).precursorsOf ip =
      d.precursorsOf ip ++ appendedTo ip [(m.destIp, s), (m.srcIp, e.nextHop)] := by
    unfold afterAnswer
    rw [precursorsOf_write _ m.srcIp e.nextHop hsrc',
      precursorsOf_apply _ (.sendUnicast s (intermediateRrep env m e)) trivial,
      precursorsOf_write d m.destIp s hdest, appendedTo_pair, List.append_assoc]
  rw [sendRrepIntermediate_exec env m s d e he, ← hafter]
  split
  · exact precursorsOf_apply _ (.sendUnicast e.nextHop (gratuitousRrep env m)) trivial ip
  · rfl

/-- The lists after a request for another node. -/
theorem recvRreq_appends (hsrc : m.srcIp ≠ n.ipAddress) (hdest : m.destIp ≠ n.ipAddress)
    (ip : U32) :
    ((recvRreq env s m).exec Op.apply n).1.precursorsOf ip =
      n.precursorsOf ip ++ appendedTo ip (rreqAppends env s m n) := by
  unfold rreqAppends
  by_cases hheld : n.heldId env s m.srcIp = some m.rreqId
  · rw [if_pos hheld, recvRreq_dropped env s m n
      ((dropped_iff_heldId env s m n hsrc hdest).mpr hheld), afterPreviousHop_precursorsOf]
    exact (List.append_nil _).symm
  · have hnew : ¬ dropped m (afterPreviousHop env s m.srcIp n) :=
      fun h => hheld ((dropped_iff_heldId env s m n hsrc hdest).mp h)
    have hlists := atDecision_precursorsOf env s m n ip
    have hhop := atDecision_answerHop env s m n
    rw [if_neg hheld, recvRreq_decides env s m n hdest hnew, ← hlists, ← hhop]
    cases hfound : ((atDecision env s m n).getRoutingEntry m.destIp).filter
        (answersFromTable m) with
    | some e =>
        rcases Option.filter_eq_some_iff.mp hfound with ⟨he, hanswers⟩
        rcases atDecision_originator env s m n with ⟨o, ho, -⟩
        rw [he, Option.any_some, if_pos hanswers]
        refine answer_precursorsOf env s (incrementHopRreq m) _ e he ?_ ip
        exact Option.isSome_iff_exists.mpr ⟨o, ho⟩
    | none =>
        have hnone : ¬ ((atDecision env s m n).getRoutingEntry m.destIp).any
            (answersFromTable m) = true := by
          intro hany
          rcases (Option.any_eq_true _ _).mp hany with ⟨e, he, hanswers⟩
          rw [he, Option.filter_some, if_pos hanswers] at hfound
          cases hfound
        rw [if_neg hnone]
        split
        · exact (List.append_nil _).symm
        · exact (List.append_nil _).symm

/-- A request of the node, or for it, is answered from no table. -/
theorem recvRreq_own_precursorsOf (hown : m.srcIp = n.ipAddress ∨ m.destIp = n.ipAddress)
    (ip : U32) :
    ((recvRreq env s m).exec Op.apply n).1.precursorsOf ip = n.precursorsOf ip := by
  by_cases hdropped : dropped m (afterPreviousHop env s m.srcIp n)
  · rw [recvRreq_dropped env s m n hdropped, afterPreviousHop_precursorsOf]
  · have hdest : m.destIp = n.ipAddress := by
      refine hown.resolve_left fun hsrc => hdropped (Or.inl ?_)
      rw [afterPreviousHop_ipAddress]
      exact hsrc
    have hrest : ((recvRreq env s m).exec Op.apply n).1 =
        ((afterReverseRoute env s (incrementHopRreq m) (atDecision env s m n)).exec Op.apply
          (atDecision env s m n)).1 := by
      rw [recvRreq_new env s m n hdropped]
      rfl
    have hself : (atDecision env s m n).ipAddress = (incrementHopRreq m).destIp :=
      (atDecision_ipAddress env s m n).trans hdest.symm
    rw [hrest, ← atDecision_precursorsOf env s m n ip, afterReverseRoute, if_pos hself]
    refine exec_precursorsOf _ _ ?_ ip
    exact ⟨trivial, trivial, trivial, trivial⟩

end Request

/-! ### Every step -/

/-- A step appends to a list what the table before it says, or removes its entry. -/
theorem step_precursorsOf (n : Node) (input : Input) (ip : U32) :
    (step n input).precursorsOf ip = n.precursorsOf ip ++ appendedTo ip (n.appends input) ∨
      (step n input).precursorsOf ip = [] := by
  -- Where nothing is appended the guards say so.
  have hquiet : n.appends input = [] → (∀ d p n', n'.ipAddress = n.ipAddress →
      ¬ (Op.write d (.precursor p)).Guard input.event n') →
      (step n input).precursorsOf ip = n.precursorsOf ip ++ appendedTo ip (n.appends input) ∨
        (step n input).precursorsOf ip = [] := by
    intro hnone hguard
    rw [hnone]
    exact (step_quiet_precursorsOf n input hguard ip).imp
      (fun h => h.trans (List.append_nil _).symm) id
  rcases input with ⟨env, event⟩
  cases event with
  | control s message =>
      cases message with
      | rreq m =>
          left
          rw [step_rreq]
          by_cases hself : s = n.ipAddress
          · simp only [Node.appends, hself, true_or, if_true]
            exact (List.append_nil _).symm
          · rw [if_neg hself]
            by_cases hown : m.srcIp = n.ipAddress ∨ m.destIp = n.ipAddress
            · simp only [Node.appends, hown, or_true, if_true]
              exact (recvRreq_own_precursorsOf env s m n hown ip).trans (List.append_nil _).symm
            · simp only [Node.appends, hself, hown, or_false, if_false]
              rw [not_or] at hown
              exact recvRreq_appends env s m n hown.1 hown.2 ip
      | rrep m =>
          by_cases hpassed : s = n.ipAddress ∨ m.srcIp = 0 ∨ m.srcIp = n.ipAddress
          · have hnone : n.appends { env := env, event := .control s (.rrep m) } = [] :=
              if_pos hpassed
            rcases hpassed with hself | hrest
            · left
              rw [hnone, step_rrep, if_pos hself]
              exact (List.append_nil _).symm
            · refine hquiet hnone fun d p n' hip hguard => ?_
              rcases hguard with ⟨s', m', hevent⟩ | ⟨s', m', hevent, hroute, hother⟩
              · cases hevent
              · cases hevent
                exact hrest.elim (fun h => hroute h) (fun h => hother (hip ▸ h))
          · left
            have happends : n.appends { env := env, event := .control s (.rrep m) } =
                rrepAppends s m n := if_neg hpassed
            simp only [not_or] at hpassed
            rw [happends, step_rrep, if_neg hpassed.1]
            exact recvRrep_appends env s m n hpassed.2.1 hpassed.2.2 ip
      | rerr header destPairs =>
          refine hquiet rfl fun d p n' hip hguard => ?_
          rcases hguard with ⟨s', m', hevent⟩ | ⟨s', m', hevent, -⟩
          · cases hevent
          · cases hevent
  | data | outgoing | forwarded | search | wait | expire | rreqIdExpire | hello =>
      refine hquiet rfl fun d p n' hip hguard => ?_
      rcases hguard with ⟨s', m', hevent⟩ | ⟨s', m', hevent, -⟩
      · cases hevent
      · cases hevent

end OpenManet
