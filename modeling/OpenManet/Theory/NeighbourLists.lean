import OpenManet.Theory.ListAppends
import OpenManet.Theory.Precursors
import OpenManet.Theory.SeqNumbers
import OpenManet.Theory.SlotSharing
import Mathlib.Data.List.Dedup

/-!
# The Lists of an Entry

An entry lists its precursors and, where it is a next hop, the destinations it is the
next hop for. Both lists only grow while the entry is there. The second is appended to
behind a test of membership and so never repeats an address. The first is appended to
at four places without one: a second reply for the same search, or a second request
answered from the table, lists a neighbour again, and `recv_rerr`, which compares the
first cell of the list with the last to see whether there is one precursor, then
broadcasts what it could unicast.

`AppendsNew` says of a message and the table it meets that it lists nobody again. Where
every step meets it the lists are free of repetitions, and as everything in them is an
address the run has named, no longer than the run has addresses.

An entry made by a search has no next hop yet, and 0 stands there. A reply may put
that 0 on a list too: it is no address, `recv_rerr` takes it for none, and it makes the
list one longer. `AppendsAddresses` says that a message does not.

## Main definitions

* `AppendsNew`: The message lists no precursor again.
* `AppendsAddresses`: Nor 0, which is no address.
* `Op.TakesKnown`: Where the addresses in lists and next hops come from.
* `Node.ListsKnown`: They are addresses the run has named.
* `UnicastsError`, `Node.ListsGood`: What is asked of the lists.

## Theorems

* `handler_knownAddresses`: Every handler takes addresses from its event or its table.
* `run_listsKnown`, `run_precursors_nodup`: The lists of a run.
* `lists_good`: In a run that lists nobody again, all lists are good.
* `not_lists_good_repeatedReply`: A reply that comes twice.
-/

namespace OpenManet

/-- None of the addresses a step appends is in the list it is appended to, and none is
    appended twice to one entry. -/
def AppendsNew (n : Node) (input : Input) : Prop :=
  (∀ a ∈ n.appends input, a.2 ∉ n.precursorsOf a.1) ∧
    (n.appends input).Pairwise fun a b => slotOf a.1 = slotOf b.1 → a.2 ≠ b.2

instance (n : Node) (input : Input) : Decidable (AppendsNew n input) :=
  decidable_of_iff
    ((n.appends input).all (fun a => !(n.precursorsOf a.1).contains a.2) = true ∧
      (n.appends input).Pairwise fun a b => slotOf a.1 = slotOf b.1 → a.2 ≠ b.2)
    (by simp only [AppendsNew, List.all_eq_true, Bool.not_eq_true', List.contains_eq_mem,
      decide_eq_false_iff_not])

/-- What a step appends are addresses, and not the 0 of an entry without a next hop. -/
def AppendsAddresses (n : Node) (input : Input) : Prop :=
  ∀ a ∈ n.appends input, a.2 ≠ 0

instance (n : Node) (input : Input) : Decidable (AppendsAddresses n input) :=
  List.decidableBAll (fun a : U32 × U32 => a.2 ≠ 0) (n.appends input)

/-- The value is the next hop of some entry, or 0, which stands for none. -/
def Node.HasNextHop (p : U32) (n : Node) : Prop :=
  p = 0 ∨ ∃ i e, n.routes.slots i = some e ∧ e.nextHop = p

/-- The addresses an operation writes to lists and next hops are those of its event,
    or the next hop of an entry, or 0 for none. -/
def Op.TakesKnown (names : List U32) (o : Op) (n : Node) : Prop :=
  match o with
  | .create _ _ _ _ nextHop _ _ => nextHop = 0 ∨ nextHop ∈ names
  | .previousHop _ _ listed _ => listed ∈ names
  | .reverseRoute _ s _ _ | .forwardRoute _ s _ _ => s ∈ names
  | .write _ (.precursor p) => p ∈ names ∨ n.HasNextHop p
  | _ => True

/-! ### The handlers -/

section Handlers

variable {names : List U32}

theorem hasNextHop_of_found (n : Node) (d : U32) (e : RoutingEntry)
    (he : n.getRoutingEntry d = some e) : n.HasNextHop e.nextHop := Or.inr ⟨_, e, he, rfl⟩

theorem hasNextHop_nextHopOf (n : Node) (d : U32) : n.HasNextHop (n.nextHopOf d) := by
  unfold Node.nextHopOf
  cases he : n.getRoutingEntry d with
  | none => exact Or.inl rfl
  | some e => exact hasNextHop_of_found n d e he

/-- Appending to a list keeps the next hops. -/
theorem hasNextHop_write (n : Node) (ip q p : U32) (h : n.HasNextHop p) :
    ((Op.write ip (.precursor q)).apply n).HasNextHop p := by
  rcases h with hnone | ⟨i, e, he, hhop⟩
  · exact Or.inl hnone
  · refine Or.inr ⟨i, ?_⟩
    rw [apply_slots, he]
    simp only [Op.effect, Effect.slot, Option.map_some]
    split
    · exact ⟨_, rfl, hhop⟩
    · exact ⟨e, rfl, hhop⟩

theorem sendRrepIntermediate_knowsNames (env : Env) (m : RreqHeader) (s : U32) (hs : s ∈ names)
    (n : Node) :
    (sendRrepIntermediate env m s acceptPacket).Meets Op.apply (Op.TakesKnown names) n := by
  refine ⟨Or.inl hs, ?_⟩
  simp only [Prog.Meets]
  cases he : ((Op.write m.destIp (.precursor s)).apply n).getRoutingEntry m.destIp with
  | none => trivial
  | some e =>
      refine ⟨trivial, Or.inr (hasNextHop_of_found _ m.destIp e he), ?_⟩
      split
      · exact ⟨trivial, trivial⟩
      · trivial

theorem recvRreq_knowsNames (env : Env) (s : U32) (m : RreqHeader) (hs : s ∈ names)
    (horig : m.srcIp ∈ names) (n : Node) :
    (recvRreq env s m).Meets Op.apply (Op.TakesKnown names) n := by
  refine ⟨Or.inr hs, horig, ?_⟩
  simp only [Prog.Meets]
  split
  · trivial
  · split
    · trivial
    · refine ⟨Or.inr hs, hs, ?_⟩
      simp only [afterReverseRoute]
      split
      · exact ⟨trivial, trivial, trivial, trivial⟩
      · simp only [answerOrForward, Prog.Meets]
        split
        · exact sendRrepIntermediate_knowsNames env _ s hs _
        · split
          · trivial
          · exact ⟨trivial, trivial⟩

theorem installForwardRoute_knowsNames (env : Env) (s : U32) (m : RrepHeader) (hs : s ∈ names)
    (n : Node) : (installForwardRoute env s m).Meets Op.apply (Op.TakesKnown names) n := by
  refine ⟨Or.inr hs, hs, trivial, ?_⟩
  simp only []
  split
  · simp only [forwardRrep, Prog.Meets]
    split
    · exact ⟨trivial, Or.inr (hasNextHop_nextHopOf _ _),
        Or.inr (hasNextHop_write _ _ _ _ (hasNextHop_nextHopOf _ _)), trivial, trivial⟩
    · trivial
  · trivial

theorem recvRrep_knowsNames (env : Env) (s : U32) (m : RrepHeader) (hs : s ∈ names)
    (hdest : m.destIp ∈ names) (n : Node) :
    (recvRrep env s m).Meets Op.apply (Op.TakesKnown names) n := by
  have hrest : ∀ n', Prog.Meets Op.apply (Op.TakesKnown names)
      (if m.srcIp = 0 then recvHello env s (incrementHopRrep m)
        else previousHopSection env s m.destIp
          (installForwardRoute env s (incrementHopRrep m))) n' := by
    intro n'
    split
    · exact ⟨Or.inr hs, trivial, trivial⟩
    · exact ⟨Or.inr hs, hdest, installForwardRoute_knowsNames env s _ hs _⟩
  simp only [recvRrep, publishFound, Prog.Meets]
  split
  · exact ⟨trivial, hrest _⟩
  · exact hrest n

theorem send_knowsNames (target : RerrTarget) (packet : Packet) (n : Node) :
    (target.send packet).TakesKnown names n := by
  unfold RerrTarget.send
  split <;> trivial

theorem rerrLoop_knowsNames (env : Env) (s : U32) (pairs : List (U32 × U32)) (l : RerrLocals)
    (n : Node) : (rerrLoop env s pairs l).Meets Op.apply (Op.TakesKnown names) n := by
  induction pairs generalizing l n with
  | nil =>
      unfold rerrLoop
      split
      · trivial
      · exact ⟨send_knowsNames _ _ _, trivial⟩
  | cons pair rest ih =>
      simp only [rerrLoop, Prog.Meets]
      split
      · exact ih l n
      · split
        · exact ⟨trivial, ih _ _⟩
        · exact ih l n

theorem startOrJoin_knowsNames (dest : U32) (new : Bool) (n n' : Node) :
    (startOrJoin dest new n).Meets Op.apply (Op.TakesKnown names) n' := by
  unfold startOrJoin
  split
  · trivial
  · simp only []
    split
    · trivial
    · split
      · exact ⟨trivial, trivial⟩
      · split
        · exact ⟨trivial, trivial, trivial⟩
        · exact ⟨trivial, trivial, trivial, trivial⟩

/-- An entry made for a search has no next hop. -/
theorem sendRreq_knowsNames (env : Env) (dest : U32) (n : Node) :
    (sendRreq env dest).Meets Op.apply (Op.TakesKnown names) n :=
  ⟨Or.inl rfl, startOrJoin_knowsNames dest _ _ _⟩

theorem outgoingMessage_knowsNames (env : Env) (dest : U32) (n : Node) :
    (outgoingMessage env dest).Meets Op.apply (Op.TakesKnown names) n := by
  simp only [outgoingMessage, Prog.Meets]
  split
  · trivial
  · split
    · exact sendRreq_knowsNames env dest n
    · split
      · exact ⟨trivial, trivial⟩
      · split
        · trivial
        · split
          · exact ⟨trivial, sendRreq_knowsNames env dest _⟩
          · exact sendRreq_knowsNames env dest n

theorem breakLoop_knowsNames (env : Env) (dest : U32) (list : List U32) (l : BreakLocals)
    (n : Node) :
    (breakLoop env dest list l).Meets Op.apply (Op.TakesKnown names) n := by
  induction list generalizing l n with
  | nil => exact ⟨send_knowsNames _ _ _, trivial⟩
  | cons ip rest ih =>
      simp only [breakLoop, Prog.Meets]
      split
      · exact ⟨trivial, ih _ _⟩
      · exact ih l n

theorem forwardedOver_knowsNames (env : Env) (src dest hopIp : U32) (srcEntry other : Bool)
    (n : Node) : (forwardedOver env src dest hopIp srcEntry other).Meets Op.apply
      (Op.TakesKnown names) n := by
  -- No operation in here appends to a list.
  have hpass : (forwardedPass env src dest srcEntry).Meets Op.apply (Op.TakesKnown names) n := by
    cases srcEntry with
    | false => exact ⟨trivial, trivial⟩
    | true => exact ⟨trivial, trivial, trivial⟩
  simp only [forwardedOver, Prog.Meets]
  split
  · cases other with
    | false => exact hpass
    | true => exact hpass
  · split
    · simp only [forwardedBreak, Prog.Meets]
      split
      · trivial
      · exact ⟨trivial, breakLoop_knowsNames env dest _ _ _⟩
    · exact ⟨trivial, trivial⟩

theorem forwardedMessages_knowsNames (env : Env) (src dest : U32) (n : Node) :
    (forwardedMessages env src dest).Meets Op.apply (Op.TakesKnown names) n := by
  simp only [forwardedMessages, Prog.Meets]
  split
  · simp only [Prog.Meets]
    split
    · exact ⟨trivial, trivial⟩
    · split
      · exact ⟨trivial, trivial⟩
      · split
        · exact forwardedOver_knowsNames env src dest _ _ true n
        · exact forwardedOver_knowsNames env src dest _ _ false n
  · exact ⟨trivial, trivial⟩

theorem waiterStep_knowsNames (env : Env) (k : Nat) (n : Node) :
    (waiterStep env k).Meets Op.apply (Op.TakesKnown names) n := by
  simp only [waiterStep, Prog.Meets]
  split
  · trivial
  · split
    · split
      · trivial
      · exact ⟨trivial, trivial⟩
    · exact ⟨trivial, trivial, trivial⟩
    · split
      · exact ⟨trivial, trivial, trivial⟩
      · exact ⟨trivial, trivial, trivial⟩
    · trivial

theorem ringStep_knowsNames (env : Env) (t : SearchThread) (rreq : RreqHeader) (ttl : U32)
    (n : Node) :
    (ringStep env t rreq ttl).Meets Op.apply (Op.TakesKnown names) n := by
  unfold ringStep retryStep
  split
  · exact ⟨trivial, trivial⟩
  · split
    · exact ⟨trivial, trivial⟩
    · exact ⟨trivial, trivial⟩

theorem searchThreadStep_knowsNames (env : Env) (id : Nat) (n : Node) :
    (searchThreadStep env id).Meets Op.apply (Op.TakesKnown names) n := by
  simp only [searchThreadStep, Prog.Meets]
  split
  · trivial
  · split
    · refine ⟨trivial, ?_⟩
      simp only [Prog.Meets]
      split
      · trivial
      · exact ringStep_knowsNames env _ _ _ _
    · exact ringStep_knowsNames env _ _ _ n
    · unfold retryStep
      split
      · exact ⟨trivial, trivial⟩
      · exact ⟨trivial, trivial⟩

end Handlers

/-- Every handler takes addresses from its event or from the table. -/
theorem handler_knownAddresses (n : Node) (input : Input) :
    OpsMeet (Op.TakesKnown input.event.names) n input := by
  rcases input with ⟨env, event⟩
  cases event with
  | control s message =>
      have hs : s ∈ (Event.control s message).names := List.mem_cons_self
      refine incomingControlMessage_meets n env s _ message (fun _ => ?_)
      cases message with
      | rreq m =>
          exact recvRreq_knowsNames env s m hs (List.mem_cons_of_mem _ List.mem_cons_self) n
      | rrep m =>
          exact recvRrep_knowsNames env s m hs
            (List.mem_cons_of_mem _ (List.mem_cons_of_mem _ List.mem_cons_self)) n
      | rerr header destPairs => exact rerrLoop_knowsNames env s _ _ n
  | data src dest => exact incomingDataMessage_meets n env _ src dest fun _ => trivial
  | outgoing dest => exact outgoingMessage_knowsNames env dest n
  | forwarded src dest => exact forwardedMessages_knowsNames env src dest n
  | search id => exact searchThreadStep_knowsNames env id n
  | wait k => exact waiterStep_knowsNames env k n
  | expire ip =>
      simp only [OpsMeet, Input.handler, expirationFunc, Prog.Meets]
      split
      · simp only [Prog.Meets]
        split
        · exact ⟨trivial, trivial⟩
        · exact ⟨trivial, trivial⟩
      · trivial
  | rreqIdExpire ip => exact rreqIdFunc_meets n _ ip trivial
  | hello => exact helloInterval_meets n _ (fun _ => trivial) (fun _ => trivial) fun _ => trivial

/-! ### What is written to the lists -/

/-- Only the previous-hop section changes the destinations of a next hop, and only the
    two route sections change a next hop. -/
theorem effect_hops (n : Node) (o : Op) (ip : U32) (f : RoutingEntry → RoutingEntry)
    (heff : o.effect n = .update ip f) (e : RoutingEntry) (names : List U32)
    (hknows : o.TakesKnown names n) :
    (∀ d ∈ (f e).nextHopFor, d ∈ e.nextHopFor ∨ d ∈ names) ∧
      ((f e).nextHop = e.nextHop ∨ (f e).nextHop ∈ names) := by
  -- A write that leaves both as they are.
  have hkept : (f e).nextHopFor = e.nextHopFor → (f e).nextHop = e.nextHop →
      (∀ d ∈ (f e).nextHopFor, d ∈ e.nextHopFor ∨ d ∈ names) ∧
        ((f e).nextHop = e.nextHop ∨ (f e).nextHop ∈ names) :=
    fun hlist hhop => ⟨fun d hd => Or.inl (hlist ▸ hd), Or.inl hhop⟩
  cases o with
  | previousHop env s l new =>
      cases heff
      rcases previousHop_eq env new e l with ⟨t, ht⟩
      rw [ht]
      refine ⟨fun d hd => ?_, Or.inl rfl⟩
      simp only [addIfAbsent] at hd
      split at hd
      · exact Or.inl hd
      · rcases List.mem_append.mp hd with hold | hnew
        · exact Or.inl hold
        · exact Or.inr (List.mem_singleton.mp hnew ▸ hknows)
  | reverseRoute env s m new =>
      have hlist := (effect_frame n _ ip f heff trivial e).nextHopFor
      cases heff
      refine ⟨fun d hd => Or.inl (hlist ▸ hd), ?_⟩
      by_cases hm : new = true ∨ fresherReverse m e = true
      · rcases reverseRoute_accepted env s new e m hm with ⟨t, ht⟩
        rw [ht]
        exact Or.inr hknows
      · rcases reverseRoute_refused env s new e m hm with ⟨t, ht⟩
        rw [ht]
        exact Or.inl rfl
  | forwardRoute env s m new =>
      have hlist := (effect_frame n _ ip f heff trivial e).nextHopFor
      cases heff
      refine ⟨fun d hd => Or.inl (hlist ▸ hd), ?_⟩
      by_cases hm : new = true ∨ fresherForward m e = true
      · rcases forwardRoute_accepted env s new e m hm with ⟨t, ht⟩
        rw [ht]
        exact Or.inr hknows
      · rcases forwardRoute_refused env s new e m hm with ⟨t, ht⟩
        rw [ht]
        exact Or.inl rfl
  | hello env m new =>
      have hlist := (effect_frame n _ ip f heff trivial e).nextHopFor
      cases heff
      refine hkept hlist ?_
      by_cases hm : takesHello m new e
      · rcases hello_accepted env new e m hm with ⟨t, ht⟩
        rw [ht]
      · rw [hello_refused env new e m hm]
  | activate ip =>
      cases heff
      refine hkept ?_ ?_
      · rw [activate_eq]
      · rw [activate_eq]
  | write ip w =>
      cases heff
      cases w <;> exact hkept rfl rfl
  | searchFound | breakRoute | linkBreak | outgoingBreak | expireRoute | startSearch
  | searchFailed =>
      cases heff
      exact hkept rfl rfl
  | create | removeEntry | beginWait | moveWaiter | moveHello | incrementSequenceNum
  | writeSequenceNum | sendRreq | sendUnicast | sendBroadcast => cases heff

/-- The next hop and the lists hold addresses named, or 0 for none. -/
structure RoutingEntry.Known (names : List U32) (e : RoutingEntry) : Prop where
  nextHop : e.nextHop = 0 ∨ e.nextHop ∈ names
  precursors : ∀ p ∈ e.precursorList, p = 0 ∨ p ∈ names
  nextHopFor : ∀ d ∈ e.nextHopFor, d ∈ names

def Node.ListsKnown (names : List U32) (n : Node) : Prop := n.Entries (RoutingEntry.Known names)

theorem listsKnown_apply (names : List U32) (o : Op) (n : Node) (hn : n.ListsKnown names)
    (hknows : o.TakesKnown names n) : (o.apply n).ListsKnown names := by
  refine entries_apply _ o n hn (fun e heff => ?_) (fun ip f e heff he => ?_)
  · cases o with
    | create env ip s v h c t =>
        cases heff
        exact ⟨hknows, fun p hp => absurd hp List.not_mem_nil,
          fun d hd => absurd hd List.not_mem_nil⟩
    | _ => cases heff
  · rcases effect_hops n o ip f heff e names hknows with ⟨hlist, hhop⟩
    refine ⟨?_, ?_, fun d hd => (hlist d hd).elim (he.nextHopFor d) id⟩
    · rcases hhop with hsame | hnamed
      · rw [hsame]
        exact he.nextHop
      · exact Or.inr hnamed
    · rcases effect_precursors n o ip f heff e with hsame | ⟨p, rfl, happend⟩
      · rw [hsame]
        exact he.precursors
      · rw [happend]
        intro q hq
        rcases List.mem_append.mp hq with hold | hnew
        · exact he.precursors q hold
        · -- The address appended is named or the next hop of an entry.
          rw [List.mem_singleton.mp hnew]
          rcases hknows with hnamed | hnone | ⟨i, e', he', hhop'⟩
          · exact Or.inr hnamed
          · exact Or.inl hnone
          · exact hhop' ▸ (hn i e' he').nextHop

theorem RoutingEntry.Known.mono {names more : List U32} {e : RoutingEntry} (h : e.Known names) :
    e.Known (names ++ more) :=
  ⟨h.nextHop.imp id (List.mem_append_left _),
    fun p hp => (h.precursors p hp).imp id (List.mem_append_left _),
    fun d hd => List.mem_append_left _ (h.nextHopFor d hd)⟩

theorem Op.TakesKnown.mono {names : List U32} (more : List U32) (o : Op) (n : Node)
    (h : o.TakesKnown names n) : o.TakesKnown (more ++ names) n := by
  cases o with
  | create env ip s v hop c t => exact Or.imp id (List.mem_append_right _) h
  | previousHop | reverseRoute | forwardRoute => exact List.mem_append_right _ h
  | write ip w =>
      cases w with
      | precursor p => exact Or.imp (List.mem_append_right _) id h
      | timer | stopTimer | searchNone | forgetRreqId => trivial
  | _ => trivial

/-- The addresses in the lists of a run are those it has named. -/
theorem run_listsKnown (names : List U32) (n : Node) (inputs : List Input)
    (hn : n.ListsKnown names) :
    (run step n inputs).ListsKnown (names ++ inputs.flatMap (fun input => input.event.names)) := by
  induction inputs generalizing names n with
  | nil =>
      rw [List.flatMap_nil, List.append_nil]
      exact hn
  | cons input rest ih =>
      rw [List.flatMap_cons, ← List.append_assoc]
      refine ih _ _ (Prog.exec_invariant Op.apply (Op.TakesKnown (names ++ input.event.names)) _
        (fun o n hn ho => listsKnown_apply _ o n hn ho) input.handler n
        (fun i e he => (hn i e he).mono) ?_)
      exact Prog.Meets.imp (fun o n h => h.mono names) _ n (handler_knownAddresses n input)

/-! ### What a step leaves of the lists of precursors -/

theorem precursorsOf_entry (n : Node) (i : Fin 256) (e : RoutingEntry)
    (he : n.routes.slots i = some e) : n.precursorsOf e.destIp = e.precursorList := by
  unfold Node.precursorsOf
  rw [Node.getRoutingEntry_eq, n.routes.keyed i e he, he]
  rfl

theorem appendedTo_nodup (ip : U32) (appended : List (U32 × U32))
    (h : appended.Pairwise fun a b => slotOf a.1 = slotOf b.1 → a.2 ≠ b.2) :
    (appendedTo ip appended).Nodup := by
  refine List.pairwise_filterMap.mpr (h.imp fun hne p hp q hq => ?_)
  split at hp
  · rename_i hslot
    split at hq
    · rename_i hslot'
      cases hp
      cases hq
      exact hne (hslot.trans hslot'.symm)
    · cases hq
  · cases hp

theorem mem_appendedTo (ip p : U32) (appended : List (U32 × U32)) (h : p ∈ appendedTo ip appended) :
    ∃ a ∈ appended, slotOf a.1 = slotOf ip ∧ a.2 = p := by
  rcases List.mem_filterMap.mp h with ⟨a, ha, hp⟩
  split at hp
  · rename_i hslot
    exact ⟨a, ha, hslot, Option.some.inj hp⟩
  · cases hp

/-- A step that lists nobody again keeps the lists free of repetitions. -/
theorem step_precursors_nodup (n : Node) (input : Input) (hn : ∀ ip, (n.precursorsOf ip).Nodup)
    (hnew : AppendsNew n input) (ip : U32) : ((step n input).precursorsOf ip).Nodup := by
  rcases step_precursorsOf n input ip with hgrown | hgone
  · rw [hgrown]
    refine List.Nodup.append (hn ip) (appendedTo_nodup ip _ hnew.2) fun p hold hlater => ?_
    rcases mem_appendedTo ip p _ hlater with ⟨a, ha, hslot, rfl⟩
    refine hnew.1 a ha ?_
    rw [Node.precursorsOf, Node.getRoutingEntry_eq, hslot, ← Node.getRoutingEntry_eq]
    exact hold
  · rw [hgone]
    exact List.nodup_nil

theorem step_precursors_addresses (n : Node) (input : Input) (hn : ∀ ip, 0 ∉ n.precursorsOf ip)
    (hnew : AppendsAddresses n input) (ip : U32) : 0 ∉ (step n input).precursorsOf ip := by
  rcases step_precursorsOf n input ip with hgrown | hgone
  · rw [hgrown]
    intro hzero
    rcases List.mem_append.mp hzero with hold | hlater
    · exact hn ip hold
    · rcases mem_appendedTo ip 0 _ hlater with ⟨a, ha, -, hnone⟩
      exact hnew a ha hnone
  · rw [hgone]
    exact List.not_mem_nil

theorem boot_precursorsOf (ip bcast : U32) (hello : Nat → Byte) (d : U32) :
    (Node.boot ip bcast hello).precursorsOf d = [] := rfl

theorem run_precursors_nodup (ip bcast : U32) (hello : Nat → Byte) (inputs : List Input)
    (hnew : AllSteps step AppendsNew (Node.boot ip bcast hello) inputs) :
    (run step (Node.boot ip bcast hello) inputs).Entries fun e => e.precursorList.Nodup := by
  intro i e he
  rw [← precursorsOf_entry _ i e he]
  exact run_invariant step AppendsNew (fun n => ∀ ip, (n.precursorsOf ip).Nodup)
    (fun n input hn hok => step_precursors_nodup n input hn hok) _ inputs
    (fun d => by rw [boot_precursorsOf]; exact List.nodup_nil) hnew e.destIp

theorem run_precursors_addresses (ip bcast : U32) (hello : Nat → Byte) (inputs : List Input)
    (hnew : AllSteps step AppendsAddresses (Node.boot ip bcast hello) inputs) :
    (run step (Node.boot ip bcast hello) inputs).Entries fun e => 0 ∉ e.precursorList := by
  intro i e he
  rw [← precursorsOf_entry _ i e he]
  exact run_invariant step AppendsAddresses (fun n => ∀ ip, 0 ∉ n.precursorsOf ip)
    (fun n input hn hok => step_precursors_addresses n input hn hok) _ inputs
    (fun d => by rw [boot_precursorsOf]; exact List.not_mem_nil) hnew e.destIp

/-! ### What the lists are for -/

/-- A RERR of the next hop about the entry's destination alone is passed on to this
    precursor alone. -/
def UnicastsError (n : Node) (e : RoutingEntry) (p : U32) : Prop :=
  ∀ env header destPairs, header.destCount = 1 → destPairs 0 = e.destIp →
    e.status = .routeValid → e.nextHop ≠ n.ipAddress →
    ∃ packet, stepCalls n { env := env, event := .control e.nextHop (.rerr header destPairs) } =
      [.sendUnicast p packet, .deleteEntry e.destIp e.nextHop]

theorem unicastsError_of_single (n : Node) (i : Fin 256) (e : RoutingEntry) (p : U32)
    (he : n.routes.slots i = some e) (hlist : e.precursorList = [p]) (hp : p ≠ 0) :
    UnicastsError n e p := by
  intro env header destPairs hone hdest hvalid hother
  have hfound : n.getRoutingEntry (destPairs 0) = some e := by
    rw [hdest, Node.getRoutingEntry_eq, n.routes.keyed i e he, he]
  have hthrough : e.goesThrough e.nextHop = true := by
    rw [RoutingEntry.goesThrough, hvalid, decide_eq_true rfl]
    rfl
  have hpairs : rerrPairs header.destCount destPairs = [(destPairs 0, destPairs 1)] := by
    rw [hone]
    rfl
  let l : RerrLocals :=
    { target := { singleRerr := 0, broadcastRerr := false }, numDests := 0
      pairs := wordAt (env.memory .rerrPairs) }
  let n' := (Op.breakRoute env (destPairs 0) (destPairs 1)).apply n
  -- The one pair is collected, and its precursor becomes the target.
  have hcollect : (l.collect e (destPairs 1)).target = { singleRerr := p, broadcastRerr := false } ∧
      (l.collect e (destPairs 1)).numDests ≠ 0 := by
    unfold RerrLocals.collect
    rw [hlist, if_pos (List.cons_ne_nil p [])]
    refine ⟨rfl, ?_⟩
    show (0 + 2 : Byte) ≠ 0
    decide
  have hstep : step n { env := env, event := .control e.nextHop (.rerr header destPairs) } =
      ((Op.sendUnicast p (l.collect e (destPairs 1)).packet).apply n') := by
    rw [step_rerr, if_neg hother, recvRerr, hpairs]
    simp only [rerrLoop, Prog.exec, hfound, if_pos hthrough]
    rw [if_neg hcollect.2]
    simp only [Prog.exec, acceptPacket, RerrTarget.send]
    rw [hcollect.1, if_pos ⟨hp, rfl⟩]
  refine ⟨(l.collect e (destPairs 1)).packet, stepCalls_of_append n _ _ ?_⟩
  rw [hstep, apply_log, apply_log]
  simp only [Op.calls, Node.whenFound, hfound]
  rfl

/-- A list without repetitions of one address is that address. -/
theorem eq_singleton_of_nodup {α : Type} (list : List α) (a : α) (hnodup : list.Nodup)
    (hne : list ≠ []) (hall : ∀ b ∈ list, b = a) : list = [a] := by
  cases list with
  | nil => exact absurd rfl hne
  | cons b rest =>
      cases rest with
      | nil => rw [hall b List.mem_cons_self]
      | cons c rest =>
          have hbc : b = c := (hall b List.mem_cons_self).trans
            (hall c (List.mem_cons_of_mem _ List.mem_cons_self)).symm
          exact absurd (hbc ▸ List.mem_cons_self) (List.nodup_cons.mp hnodup).1

/-- The lists repeat nothing, a RERR for one precursor is unicast to it, and no list is
    longer than there are addresses seen. -/
structure Node.ListsGood (seen : List U32) (n : Node) : Prop where
  precursors : n.Entries fun e => e.precursorList.Nodup
  nextHopFor : n.Entries fun e => e.nextHopFor.Nodup
  /-- 0 is no address, and stands for no precursor in `recv_rerr`. -/
  unicast : ∀ p, p ≠ 0 → n.Entries fun e =>
    e.precursorList ≠ [] → (∀ q ∈ e.precursorList, q = p) → UnicastsError n e p
  bounded : n.Entries fun e => e.precursorList.length ≤ seen.dedup.length ∧
    e.nextHopFor.length ≤ seen.dedup.length

/-- The addresses a run has seen. -/
def addressesSeen (inputs : List Input) : List U32 :=
  inputs.flatMap fun input => input.event.names

theorem length_le_seen (list seen : List U32) (hnodup : list.Nodup) (hseen : ∀ a ∈ list, a ∈ seen) :
    list.length ≤ seen.dedup.length :=
  (List.subperm_of_subset hnodup fun a ha => List.mem_dedup.mpr (hseen a ha)).length_le

/-- Lists without repetitions of addresses seen are good. -/
theorem listsGood_of_known (n : Node) (seen : List U32)
    (hprecursors : n.Entries fun e => e.precursorList.Nodup)
    (hhops : n.Entries fun e => e.nextHopFor.Nodup)
    (hseen : n.Entries fun e => (∀ p ∈ e.precursorList, p ∈ seen) ∧ ∀ d ∈ e.nextHopFor, d ∈ seen) :
    n.ListsGood seen := by
  refine ⟨hprecursors, hhops, fun p hp i e he hne hall => ?_, fun i e he => ⟨?_, ?_⟩⟩
  · -- Without repetitions a list of one address has it first and last.
    have hsingle := eq_singleton_of_nodup _ p (hprecursors i e he) hne hall
    exact unicastsError_of_single n i e p he hsingle hp
  · exact length_le_seen _ _ (hprecursors i e he) (hseen i e he).1
  · exact length_le_seen _ _ (hhops i e he) (hseen i e he).2

/-- In every run that lists nobody again the lists are good, with 0 counted as an address;
    and they are without it in every run that does not append it either. -/
theorem lists_good (ip bcast : U32) (hello : Nat → Byte) (inputs : List Input)
    (hnew : AllSteps step AppendsNew (Node.boot ip bcast hello) inputs) :
    (run step (Node.boot ip bcast hello) inputs).ListsGood (0 :: addressesSeen inputs) ∧
      (AllSteps step AppendsAddresses (Node.boot ip bcast hello) inputs →
        (run step (Node.boot ip bcast hello) inputs).ListsGood (addressesSeen inputs) ∧
          (run step (Node.boot ip bcast hello) inputs).Entries fun e => 0 ∉ e.precursorList) := by
  have hprecursors := run_precursors_nodup ip bcast hello inputs hnew
  have hhops := nextHopFor_nodup ip bcast hello inputs
  have hknown := run_listsKnown [] (Node.boot ip bcast hello) inputs
    (fun i e he => absurd he (Node.boot_slots_ne ip bcast hello i e))
  refine ⟨listsGood_of_known _ _ hprecursors hhops fun i e he => ⟨fun p hp => ?_, fun d hd => ?_⟩,
    fun haddresses => ?_⟩
  · rcases (hknown i e he).precursors p hp with hzero | hnamed
    · exact hzero ▸ List.mem_cons_self
    · exact List.mem_cons_of_mem _ hnamed
  · exact List.mem_cons_of_mem _ ((hknown i e he).nextHopFor d hd)
  · have hzero := run_precursors_addresses ip bcast hello inputs haddresses
    refine ⟨listsGood_of_known _ _ hprecursors hhops fun i e he => ⟨fun p hp => ?_, fun d hd => ?_⟩,
      hzero⟩
    · rcases (hknown i e he).precursors p hp with hnone | hnamed
      · exact absurd (hnone ▸ hp) (hzero i e he)
      · exact hnamed
    · exact (hknown i e he).nextHopFor d hd

/-- A request and the reply it gets, passed on. -/
def replyPassedOn : List Input :=
  [receive 0x02000000 (requestFor 2 1 0x04000000 0x05000000 1),
    receive 0x03000000 (replyAfter 0 0x04000000 7 0x05000000)]

theorem lists_good_replyPassedOn :
    (run step (Node.boot 0x01000000 0xFF000000 fun _ => 0) replyPassedOn).ListsGood
      (addressesSeen replyPassedOn) :=
  ((lists_good 0x01000000 0xFF000000 (fun _ => 0) replyPassedOn (by decide)).2 (by decide)).1

/-- The same reply once more lists both neighbours again. -/
theorem not_lists_good_repeatedReply :
    ¬ ∀ (ip bcast : U32) (hello : Nat → Byte) (inputs : List Input),
      (run step (Node.boot ip bcast hello) inputs).ListsGood (addressesSeen inputs) := by
  intro h
  have hlists := h 0x01000000 0xFF000000 (fun _ => 0)
    (replyPassedOn ++ [receive 0x03000000 (replyAfter 0 0x04000000 7 0x05000000)])
  have hnodup := hlists.precursors 4 _ rfl
  exact absurd hnodup (by decide)

end OpenManet
