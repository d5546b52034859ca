import OpenManet.Core.Machine
import OpenManet.Library.LockOrder

/-!
# Deadlocks on Entry Mutexes

Handlers that run side by side. Most lock one mutex at a time and can wait for
nobody for ever. Two lock a second one while they hold the destination's, and pick
it from the packet and the table: a reply passed on locks the originator's, and a
forwarded packet the next hop's and the source's. Nothing orders the two. They may
be one and the same, and then the handler waits for itself; or two handlers take
the same two in opposite orders. The link break locks the next hop's mutex twice and
so always waits for itself.

`HandlerCall.InOrder` is the condition under which none of this happens: there is
some order of the slots in which second mutexes come after first ones, and no link
breaks. It is asked of a call whenever it looks at the table.

## Main definitions

* `HandlerCall.InOrder`: The second mutex of a call comes after the first.
* `handlerStep`: One step of one of the calls running side by side.

## Theorems

* `recvRreq_ordered`, `recvRrep_ordered`, `recvRerr_ordered`,
  `incomingDataMessage_ordered`, `outgoingMessage_ordered`,
  `forwardedMessages_ordered`: The handlers take their mutexes in order.
* `handlers_not_deadlocked`: Calls in order do not deadlock.
* `not_handlers_not_deadlocked_reply`: A reply waits for itself.
-/

namespace OpenManet

/-- There is an entry in the slot and its route is valid. -/
def Node.ValidAt (k : Fin 256) (n : Node) : Prop :=
  (n.routes.slots k).any (fun e => e.status = .routeValid) = true

instance (k : Fin 256) (n : Node) : Decidable (n.ValidAt k) :=
  inferInstanceAs (Decidable (_ = true))

/-- The mutexes the call goes on to lock rank above those it holds, and it is not
    about to enter the link break. -/
def HandlerCall.InOrder (rank : Fin 256 → Nat) : HandlerCall → Finset (Fin 256) → Node → Prop
  | recvRrep _ _ m, held, n =>
    (n.getRoutingEntry m.srcIp).isSome = true → ∀ k ∈ held, rank k < rank (slotOf m.srcIp)
  | forwardedMessages _ src dest, held, n =>
    (held = ∅ → (n.getRoutingEntry dest).isSome = true → (n.getRoutingEntry src).isSome = true →
        rank (slotOf dest) < rank (slotOf src)) ∧
      (held = {slotOf dest} → ∀ destination, n.getRoutingEntry dest = some destination →
        ∀ destHop, n.getRoutingEntry destination.nextHop = some destHop →
          destHop.destIp ≠ destination.destIp →
          rank (slotOf dest) < rank (slotOf destination.nextHop)) ∧
      (n.isValid dest = true → ∀ k ∈ held, n.ValidAt k)
  | recvRreq _ _ _, _, _ | recvRerr _ _ _ _, _, _ | incomingDataMessage _ _ _, _, _
  | outgoingMessage _ _, _, _ => True

instance (rank : Fin 256 → Nat) (call : HandlerCall) (held : Finset (Fin 256)) (n : Node) :
    Decidable (call.InOrder rank held n) := by
  cases call <;> unfold HandlerCall.InOrder <;> infer_instance

/-! ### The handlers in order -/

section Handlers

variable (rank : Fin 256 → Nat) (ok : Finset (Fin 256) → Node → Prop)

/-- The handler takes its mutexes upwards from the ones held. -/
abbrev Handler.OrderedFrom (h : Handler) (held : Finset (Fin 256)) : Prop :=
  Prog.Ordered rank ok h held

theorem locked_ordered (ip : U32) (o : Op) (next : Handler)
    (h : next.OrderedFrom rank ok ∅) : (locked ip o next).OrderedFrom rank ok ∅ :=
  ordered_section rank ok (slotOf ip) o (fun _ _ => next) ∅ (ordered_first rank _) (fun _ _ => h)

theorem previousHopSection_ordered (env : Env) (s l : U32) (next : Handler)
    (h : next.OrderedFrom rank ok ∅) : (previousHopSection env s l next).OrderedFrom rank ok ∅ :=
  fun _ _ => locked_ordered rank ok s _ next h

/-- The last unlock leaves none held. -/
theorem unlock_ordered (ip : U32) (next : Handler) (h : next.OrderedFrom rank ok ∅) :
    Handler.OrderedFrom rank ok (.unlock (slotOf ip) next) (insert (slotOf ip) ∅) :=
  ordered_unlock rank ok (slotOf ip) next ∅ (Finset.notMem_empty _) h

theorem sendRrepIntermediate_ordered (env : Env) (m : RreqHeader) (s : U32) :
    (sendRrepIntermediate env m s acceptPacket).OrderedFrom rank ok ∅ := by
  refine ordered_section rank ok (slotOf m.destIp) (.write m.destIp (.precursor s)) _ ∅
    (ordered_first rank _) (fun _ n => ?_)
  cases n.getRoutingEntry m.destIp with
  | none => trivial
  | some e =>
      refine fun _ _ => locked_ordered rank ok m.srcIp _ _ ?_
      by_cases hflags : m.flags ≠ 0
      · rw [if_pos hflags]
        exact fun _ _ => trivial
      · rw [if_neg hflags]
        trivial

theorem recvRreq_ordered (env : Env) (s : U32) (m : RreqHeader) :
    (recvRreq env s m).OrderedFrom rank ok ∅ := by
  have hanswer : ∀ m : RreqHeader, (answerOrForward env s m).OrderedFrom rank ok ∅ := by
    intro m n _
    simp only []
    split
    · exact sendRrepIntermediate_ordered rank ok env m s
    · split
      · trivial
      · exact fun _ _ => trivial
  refine previousHopSection_ordered rank ok env s m.srcIp _ (fun n _ => ?_)
  simp only []
  split
  · trivial
  · split
    · trivial
    · -- Nothing is held any more, so the originator's entry may have any rank.
      refine fun _ _ => ⟨ordered_first rank _, fun _ n => ?_⟩
      simp only [afterReverseRoute]
      split
      · exact fun _ _ => unlock_ordered rank ok m.srcIp _ (fun _ _ _ _ _ _ => trivial)
      · exact unlock_ordered rank ok m.srcIp _ (hanswer _)

theorem recvRerr_ordered (env : Env) (s : U32) (header : RerrHeader) (destPairs : Nat → U32) :
    (recvRerr env s header destPairs).OrderedFrom rank ok ∅ := by
  unfold recvRerr
  generalize rerrPairs header.destCount destPairs = pairs
  generalize ({ target := _, numDests := _, pairs := _ } : RerrLocals) = l
  -- What has been collected decides no lock, so the induction is for any of it.
  induction pairs generalizing l with
  | nil =>
      unfold rerrLoop
      split
      · trivial
      · exact fun _ _ => trivial
  | cons pair rest ih =>
      intro n _
      simp only []
      cases n.getRoutingEntry pair.1 with
      | none => exact ih l
      | some e =>
          simp only []
          by_cases hthrough : e.goesThrough s = true
          · rw [if_pos hthrough]
            -- One entry at a time: it is unlocked before the next pair is looked up.
            exact ⟨ordered_first rank _, fun _ _ _ _ => unlock_ordered rank ok _ _ (ih _)⟩
          · rw [if_neg hthrough]
            exact ih l

theorem incomingDataMessage_ordered (env : Env) (src dest : U32) :
    (incomingDataMessage env src dest).OrderedFrom rank ok ∅ := by
  intro n _
  simp only []
  split
  · exact locked_ordered rank ok src _ acceptPacket trivial
  · trivial

theorem sendRreq_ordered (env : Env) (dest : U32) : (sendRreq env dest).OrderedFrom rank ok ∅ := by
  have hstart : Handler.OrderedFrom rank ok (locked dest (.startSearch dest)
      (.op (.beginWait dest) fun _ _ => .ret .waits)) ∅ :=
    locked_ordered rank ok dest _ _ (fun _ _ => trivial)
  intro before n
  simp only [startOrJoin]
  split
  · trivial
  · split
    · trivial
    · split
      · exact fun _ _ => trivial
      · split
        · exact hstart
        · exact fun _ _ => hstart

theorem outgoingMessage_ordered (env : Env) (dest : U32) :
    (outgoingMessage env dest).OrderedFrom rank ok ∅ := by
  intro n _
  simp only []
  split
  · trivial
  · split
    · exact sendRreq_ordered rank ok env dest
    · split
      · exact locked_ordered rank ok dest _ acceptPacket trivial
      · split
        · trivial
        · split
          · exact locked_ordered rank ok dest _ _ (sendRreq_ordered rank ok env dest)
          · exact sendRreq_ordered rank ok env dest

end Handlers

/-! ### The two handlers that lock a second mutex -/

section Nested

variable (rank : Fin 256 → Nat)

/-- A reply is passed on with the destination's mutex held, and the originator's
    comes after it. -/
theorem recvRrep_ordered (env : Env) (s : U32) (m : RrepHeader) :
    (recvRrep env s m).OrderedFrom rank ((HandlerCall.recvRrep env s m).InOrder rank) ∅ := by
  have hforward : ∀ next : Handler,
      next.OrderedFrom rank ((HandlerCall.recvRrep env s m).InOrder rank)
        (insert (slotOf m.destIp) ∅) →
      (forwardRrep (incrementHopRrep m) next).OrderedFrom rank
        ((HandlerCall.recvRrep env s m).InOrder rank) (insert (slotOf m.destIp) ∅) := by
    intro next hnext n hn
    simp only []
    split
    · rename_i horigin
      -- Passing the reply on locks the originator's entry over the destination's.
      have habove := hn horigin
      have hfree : slotOf m.srcIp ∉ insert (slotOf m.destIp) (∅ : Finset (Fin 256)) :=
        fun hin => absurd (habove _ hin) (Nat.lt_irrefl _)
      exact ⟨habove, fun _ _ _ _ _ _ _ _ =>
        ordered_unlock rank _ (slotOf m.srcIp) next _ hfree hnext⟩
    · exact hnext
  have hinstall : (installForwardRoute env s (incrementHopRrep m)).OrderedFrom rank
      ((HandlerCall.recvRrep env s m).InOrder rank) ∅ := by
    refine fun _ _ => ⟨ordered_first rank _, fun _ _ _ n => ?_⟩
    have hunlock := unlock_ordered rank ((HandlerCall.recvRrep env s m).InOrder rank)
      m.destIp acceptPacket trivial
    simp only []
    split
    · exact hforward _ hunlock
    · exact hunlock
  have hrest : Handler.OrderedFrom rank ((HandlerCall.recvRrep env s m).InOrder rank)
      (if m.srcIp = 0 then recvHello env s (incrementHopRrep m)
        else previousHopSection env s m.destIp (installForwardRoute env s (incrementHopRrep m)))
      ∅ := by
    split
    · exact fun _ _ => locked_ordered rank _ _ _ acceptPacket trivial
    · exact previousHopSection_ordered rank _ env s m.destIp _ hinstall
  intro n _
  -- The originator of the search publishes, in a section before, that it is over.
  simp only []
  split
  · exact locked_ordered rank _ m.destIp _ _ hrest
  · exact hrest

variable (env : Env) (src dest : U32)

theorem forwardedError_ordered (ok : Finset (Fin 256) → Node → Prop) (destSeq : U32)
    (held : Finset (Fin 256)) :
    Handler.OrderedFrom rank ok (forwardedError dest destSeq) held :=
  fun _ _ => trivial

/-- With the destination's mutex held, the source's comes after it. -/
theorem forwardedPass_ordered (ok : Finset (Fin 256) → Node → Prop) (srcEntry : Bool)
    (hsrc : srcEntry = true → rank (slotOf dest) < rank (slotOf src)) :
    (forwardedPass env src dest srcEntry).OrderedFrom rank ok (insert (slotOf dest) ∅) := by
  have hunlock := unlock_ordered rank ok dest acceptPacket trivial
  refine fun _ _ => ?_
  cases srcEntry with
  | false => exact hunlock
  | true =>
      refine ordered_section rank ok (slotOf src) _ (fun _ _ => _) _ (fun k hk => ?_)
        (fun _ _ => hunlock)
      rw [Finset.insert_empty, Finset.mem_singleton] at hk
      rw [hk]
      exact hsrc rfl

/-- Over the next hop, with its mutex held as well or being the same, no link
    breaks. -/
theorem forwardedOver_ordered (hopIp : U32) (srcEntry other : Bool)
    (held : Finset (Fin 256))
    (hsrc : srcEntry = true → rank (slotOf dest) < rank (slotOf src))
    (hhop : slotOf hopIp ∈ held)
    (hheld : (if other then held.erase (slotOf hopIp) else held) = insert (slotOf dest) ∅) :
    (forwardedOver env src dest hopIp srcEntry other).OrderedFrom rank
      ((HandlerCall.forwardedMessages env src dest).InOrder rank) held := by
  intro n hn
  -- The next hop's entry is held, so by the rule it is valid when the route is.
  have hvalid : n.isValid dest = true → n.isValid hopIp = true :=
    fun hdest => hn.2.2 hdest _ hhop
  have hpass := forwardedPass_ordered rank env src dest
    ((HandlerCall.forwardedMessages env src dest).InOrder rank) srcEntry hsrc
  simp only []
  split
  · cases other with
    | false =>
        simp only [Bool.false_eq_true, if_false] at hheld ⊢
        rw [hheld]
        exact hpass
    | true =>
        simp only [if_true] at hheld ⊢
        show Prog.Ordered rank _ _ (held.erase (slotOf hopIp))
        rw [hheld]
        exact hpass
  · rename_i hboth
    -- Not both are valid, so it is the route that is not, and the error path follows.
    by_cases hdest : n.isValid dest = true
    · exact absurd ⟨hdest, hvalid hdest⟩ hboth
    · rw [if_neg hdest]
      exact forwardedError_ordered rank dest _ (n.destIpOf dest) _

theorem forwardedMessages_ordered :
    (forwardedMessages env src dest).OrderedFrom rank
      ((HandlerCall.forwardedMessages env src dest).InOrder rank) ∅ := by
  intro n₀ hn₀
  simp only []
  split
  · rename_i hdest
    have hsrc : (n₀.getRoutingEntry src).isSome = true → rank (slotOf dest) < rank (slotOf src) :=
      hn₀.1 rfl hdest
    refine ⟨ordered_first rank _, fun n hn => ?_⟩
    have herror : ∀ destSeq, Handler.OrderedFrom rank
        ((HandlerCall.forwardedMessages env src dest).InOrder rank)
        (.unlock (slotOf dest) (forwardedError dest destSeq)) (insert (slotOf dest) ∅) :=
      fun destSeq => unlock_ordered rank _ dest _ (forwardedError_ordered rank dest _ destSeq ∅)
    simp only []
    cases he : n.getRoutingEntry dest with
    | none => exact herror 0
    | some destination =>
        simp only []
        cases hhop : n.getRoutingEntry destination.nextHop with
        | none => exact herror _
        | some destHop =>
            simp only []
            by_cases hother : destHop.destIp ≠ destination.destIp
            · rw [if_pos hother]
              have habove := hn.2.1 Finset.insert_empty destination he destHop hhop hother
              have hdiff :
                  slotOf destination.nextHop ∉ insert (slotOf dest) (∅ : Finset (Fin 256)) := by
                rw [Finset.insert_empty, Finset.mem_singleton]
                exact fun hslot => absurd habove (hslot ▸ Nat.lt_irrefl _)
              refine ⟨fun k hk => ?_, forwardedOver_ordered rank env src dest _ _ true _ hsrc
                (Finset.mem_insert_self _ _) (Finset.erase_insert hdiff)⟩
              rw [Finset.insert_empty, Finset.mem_singleton] at hk
              rw [hk]
              exact habove
            · rw [if_neg hother]
              -- One address, one slot.
              have hslot : slotOf destination.nextHop = slotOf dest := by
                rw [← n.routes.keyed _ _ he, ← n.routes.keyed _ _ hhop, not_not.mp hother]
              refine forwardedOver_ordered rank env src dest _ _ false _ hsrc ?_ rfl
              rw [hslot]
              exact Finset.mem_insert_self _ _
  · exact forwardedError_ordered rank dest _ 0 ∅

end Nested

/-! ### Calls side by side -/

/-- One step of one of the calls. -/
def handlerStep {ι : Type} [DecidableEq ι] [Fintype ι] :
    Config ι Node Op (Fin 256) Outcome → ι → Config ι Node Op (Fin 256) Outcome :=
  threadStep Op.apply

/-- The calls about to begin. -/
def beginCalls {ι : Type} (calls : ι → HandlerCall) (n : Node) :
    Config ι Node Op (Fin 256) Outcome :=
  Config.start (fun i => (calls i).handler) n

/-- Whatever the call of a step looks at has its mutexes in order. -/
def CallsInOrder {ι : Type} (rank : Fin 256 → Nat) (calls : ι → HandlerCall) :
    Config ι Node Op (Fin 256) Outcome → ι → Prop :=
  LooksOk fun i => (calls i).InOrder rank

instance {ι : Type} (rank : Fin 256 → Nat) (calls : ι → HandlerCall)
    (c : Config ι Node Op (Fin 256) Outcome) (i : ι) : Decidable (CallsInOrder rank calls c i) :=
  inferInstanceAs (Decidable (LooksOk _ c i))

theorem handler_ordered (rank : Fin 256 → Nat) (call : HandlerCall) :
    call.handler.OrderedFrom rank (call.InOrder rank) ∅ := by
  cases call with
  | recvRreq env s m => exact recvRreq_ordered rank _ env s m
  | recvRrep env s m => exact recvRrep_ordered rank env s m
  | recvRerr env s header pairs => exact recvRerr_ordered rank _ env s header pairs
  | incomingDataMessage env src dest => exact incomingDataMessage_ordered rank _ env src dest
  | outgoingMessage env dest => exact outgoingMessage_ordered rank _ env dest
  | forwardedMessages env src dest => exact forwardedMessages_ordered rank env src dest

/-- From any state of the table, for any finite set of calls and any interleaving of
    their steps: if the calls take their second mutexes in some one order of the
    slots and no link breaks, no set of them is deadlocked. -/
theorem handlers_not_deadlocked {ι : Type} [DecidableEq ι] [Fintype ι] (rank : Fin 256 → Nat)
    (calls : ι → HandlerCall) (n : Node) (schedule : List ι)
    (hok : AllSteps handlerStep (CallsInOrder rank calls) (beginCalls calls n) schedule)
    (waiting : Finset ι) :
    ¬ Deadlocked (run handlerStep (beginCalls calls n) schedule) waiting :=
  no_deadlock Op.apply rank (fun i => (calls i).InOrder rank) (fun i => (calls i).handler)
    (fun i => handler_ordered rank (calls i)) n schedule hok waiting

/-- A reply to be passed on to 3.0.0.0, about 2.0.0.0, and a packet from 3.0.0.0
    received meanwhile. -/
def replyAndData : Fin 2 → HandlerCall
  | 0 => .recvRrep .clear 0x02000000
    (generateRrepMessage (fun _ => 0) 0 0x02000000 5 0x03000000 (toU32 myRouteTimeout))
  | 1 => .incomingDataMessage .clear 0x03000000 0x01000000

/-- A node with a route to 3.0.0.0. -/
def routeToOriginator : List Input :=
  [receive 0x03000000 (requestFor 7 1 0x04000000 0x03000000 1)]

/-- The two calls as far as the data packet waiting for the reply. -/
theorem handlers_not_deadlocked_reply :
    ¬ Deadlocked (run handlerStep (beginCalls replyAndData
      (run step (Node.boot 0x01000000 0xFF000000 fun _ => 0) routeToOriginator))
      (List.replicate 12 0 ++ [1, 1])) Finset.univ :=
  handlers_not_deadlocked (fun k => k.val) replyAndData _ _ (by decide +kernel) Finset.univ

/-- A reply about the node that asks for it. -/
def replyAboutOriginator : Fin 1 → HandlerCall := fun _ =>
  .recvRrep .clear 0x02000000
    (generateRrepMessage (fun _ => 0) 0 0x03000000 5 0x03000000 (toU32 myRouteTimeout))

/-- The reply is passed on, and its handler locks the one entry twice. -/
theorem not_handlers_not_deadlocked_reply :
    ¬ ∀ (count : Nat) (calls : Fin count → HandlerCall) (ip bcast : U32) (hello : Nat → Byte)
      (inputs : List Input) (schedule : List (Fin count)) (waiting : Finset (Fin count)),
      ¬ Deadlocked (run handlerStep (beginCalls calls
        (run step (Node.boot ip bcast hello) inputs)) schedule) waiting := by
  intro hall
  refine hall 1 replyAboutOriginator 0x01000000 0xFF000000 (fun _ => 0) [] (List.replicate 10 0)
    {0} ⟨Finset.singleton_nonempty 0, fun i hi => ⟨3, ?_, 0, Finset.mem_singleton_self 0, ?_⟩⟩
  · rw [Finset.mem_singleton] at hi
    rw [hi]
    exact ⟨_, rfl⟩
  · decide

end OpenManet
