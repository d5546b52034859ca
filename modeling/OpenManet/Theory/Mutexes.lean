import OpenManet.Core.Machine
import OpenManet.Library.Locks

/-!
# Mutexes Given Back

Which handlers give back the mutexes they take. All but one do, on every path:
`forwarded_messages`, which leaves its loop for the error at the end with the next
hop's mutex held and unlocks the destination's only. It gets there with two
mutexes when the destination has an entry that is not valid and its next hop has
an entry of its own.

The link break gives nothing back either, but it never returns: it locks the next
hop's mutex a second time.

## Main definitions

* `KeepsHop`: The next hop's mutex is left held.

## Theorems

* `recvRreq_givesBack`, `recvRrep_givesBack`, `recvRerr_givesBack`,
  `outgoingMessage_givesBack`, `incomingDataMessage_givesBack`: One for each handler.
* `forwardedMessages_givesBack`: The handler with the defect, where it does.
* `gives_back_iff`: A call gives its mutexes back exactly when it does not keep the
  next hop's.
-/

namespace OpenManet

/-- The handler, started with these mutexes held, gives all of them back. -/
abbrev Handler.GivesBackFrom (h : Handler) (n : Node) (held : Finset (Fin 256)) : Prop :=
  GivesBack Op.apply h n held

theorem acceptPacket_givesBack (n : Node) : acceptPacket.GivesBackFrom n ∅ :=
  givesBack_ret Op.apply _ n

theorem dropPacket_givesBack (n : Node) : dropPacket.GivesBackFrom n ∅ :=
  givesBack_ret Op.apply _ n

theorem waits_givesBack (n : Node) : Handler.GivesBackFrom (.ret .waits) n ∅ :=
  givesBack_ret Op.apply _ n

theorem locked_givesBack (ip : U32) (o : Op) (next : Handler) (n : Node) (held : Finset (Fin 256))
    (h : next.GivesBackFrom (o.apply n) held) : (locked ip o next).GivesBackFrom n held :=
  givesBack_section Op.apply (slotOf ip) o (fun _ _ => next) n held h

theorem previousHopSection_givesBack (env : Env) (s l : U32) (next : Handler)
    (h : ∀ n, next.GivesBackFrom n ∅) (n : Node) :
    (previousHopSection env s l next).GivesBackFrom n ∅ :=
  locked_givesBack s _ next _ ∅ (h _)

/-! ### Route requests -/

theorem sendRrepDestination_givesBack (env : Env) (m : RreqHeader) (s : U32) (n : Node) :
    (sendRrepDestination env m s acceptPacket).GivesBackFrom n ∅ :=
  givesBack_read Op.apply _ n ∅ (givesBack_op Op.apply _ _ n ∅
    (givesBack_op Op.apply _ _ _ ∅ (acceptPacket_givesBack _)))

theorem sendRrepIntermediate_givesBack (env : Env) (m : RreqHeader) (s : U32) (n : Node) :
    (sendRrepIntermediate env m s acceptPacket).GivesBackFrom n ∅ := by
  refine givesBack_section Op.apply (slotOf m.destIp) (.write m.destIp (.precursor s)) _ n ∅ ?_
  generalize (Op.write m.destIp (.precursor s)).apply n = n'
  cases n'.getRoutingEntry m.destIp with
  | none => exact acceptPacket_givesBack n'
  | some e =>
      refine locked_givesBack m.srcIp _ _ _ ∅ ?_
      by_cases hflags : m.flags ≠ 0
      · rw [if_pos hflags]
        exact givesBack_op Op.apply _ _ _ ∅ (acceptPacket_givesBack _)
      · rw [if_neg hflags]
        exact acceptPacket_givesBack _

theorem answerOrForward_givesBack (env : Env) (s : U32) (m : RreqHeader) (n : Node) :
    (answerOrForward env s m).GivesBackFrom n ∅ := by
  refine givesBack_read Op.apply _ n ∅ ?_
  by_cases hanswers : (n.getRoutingEntry m.destIp).any (answersFromTable m) = true
  · rw [if_pos hanswers]
    exact sendRrepIntermediate_givesBack env m s n
  · rw [if_neg hanswers]
    by_cases httl : m.ttl ≤ 1
    · rw [if_pos httl]
      exact acceptPacket_givesBack n
    · rw [if_neg httl]
      exact givesBack_op Op.apply _ _ n ∅ (acceptPacket_givesBack _)

theorem afterReverseRoute_givesBack (env : Env) (s : U32) (m : RreqHeader) (n n' : Node) :
    (afterReverseRoute env s m n).GivesBackFrom n' (insert (slotOf m.srcIp) ∅) := by
  unfold afterReverseRoute
  have hfree : slotOf m.srcIp ∉ (∅ : Finset (Fin 256)) := Finset.notMem_empty _
  by_cases hown : n.ipAddress = m.destIp
  · rw [if_pos hown]
    exact givesBack_op Op.apply _ _ n' _ (givesBack_unlock_insert Op.apply (slotOf m.srcIp)
      (sendRrepDestination env m s acceptPacket) _ ∅ hfree
      (sendRrepDestination_givesBack env m s _))
  · rw [if_neg hown]
    exact givesBack_unlock_insert Op.apply _ _ n' ∅ hfree (answerOrForward_givesBack env s m n')

theorem recvNewRreq_givesBack (env : Env) (s : U32) (m : RreqHeader) (n : Node) :
    (recvNewRreq env s m).GivesBackFrom n ∅ :=
  givesBack_lock Op.apply (slotOf m.srcIp) _ _ ∅
    (fun _ => afterReverseRoute_givesBack env s m _ _)

theorem recvRreq_givesBack (env : Env) (s : U32) (m : RreqHeader) (n : Node) :
    (recvRreq env s m).GivesBackFrom n ∅ := by
  refine previousHopSection_givesBack env s m.srcIp _ (fun n => ?_) n
  refine givesBack_read Op.apply _ n ∅ ?_
  by_cases hown : m.srcIp = n.ipAddress
  · rw [if_pos hown]
    exact acceptPacket_givesBack n
  · rw [if_neg hown]
    by_cases hdup : (n.getRoutingEntry m.srcIp).any (isDuplicate n.ipAddress m) = true
    · rw [if_pos hdup]
      exact acceptPacket_givesBack n
    · rw [if_neg hdup]
      exact recvNewRreq_givesBack env s _ n

/-! ### Route replies -/

/-- Where the originator's mutex is the destination's, the reply is never passed
    on and the execution never returns. -/
theorem forwardRrep_givesBack (m : RrepHeader) (next : Handler) (n : Node)
    (held : Finset (Fin 256)) (h : ∀ n, next.GivesBackFrom n held) :
    (forwardRrep m next).GivesBackFrom n held := by
  refine givesBack_read Op.apply _ n held ?_
  by_cases horigin : (n.getRoutingEntry m.srcIp).isSome = true
  · rw [if_pos horigin]
    exact givesBack_lock Op.apply (slotOf m.srcIp) _ n held
      (fun hk => givesBack_unlock_insert Op.apply (slotOf m.srcIp) next _ held hk (h _))
  · rw [if_neg horigin]
    exact h n

theorem installForwardRoute_givesBack (env : Env) (s : U32) (m : RrepHeader) (n : Node) :
    (installForwardRoute env s m).GivesBackFrom n ∅ := by
  have hunlock : ∀ n : Node, Handler.GivesBackFrom (.unlock (slotOf m.destIp) acceptPacket) n
      (insert (slotOf m.destIp) ∅) := fun n =>
    givesBack_unlock_insert Op.apply _ acceptPacket n ∅ (Finset.notMem_empty _)
      (acceptPacket_givesBack n)
  refine givesBack_lock Op.apply (slotOf m.destIp) _ _ ∅ (fun _ => ?_)
  refine givesBack_op Op.apply _ _ _ _ (givesBack_op Op.apply _ _ _ _ ?_)
  split
  · exact forwardRrep_givesBack m _ _ _ hunlock
  · exact hunlock _

theorem recvRrep_givesBack (env : Env) (s : U32) (m : RrepHeader) (n : Node) :
    (recvRrep env s m).GivesBackFrom n ∅ := by
  have hrest : ∀ n : Node, Handler.GivesBackFrom
      (if m.srcIp = 0 then recvHello env s (incrementHopRrep m)
        else previousHopSection env s m.destIp (installForwardRoute env s (incrementHopRrep m)))
      n ∅ := by
    intro n
    by_cases hhello : m.srcIp = 0
    · rw [if_pos hhello]
      exact locked_givesBack _ _ acceptPacket _ ∅ (acceptPacket_givesBack _)
    · rw [if_neg hhello]
      exact previousHopSection_givesBack env s m.destIp _
        (fun n => installForwardRoute_givesBack env s _ n) n
  refine givesBack_read Op.apply _ n ∅ ?_
  split
  · exact locked_givesBack m.destIp _ _ n ∅ (hrest _)
  · exact hrest n

/-! ### Route errors -/

theorem rerrLoop_givesBack (env : Env) (s : U32) (pairs : List (U32 × U32)) (l : RerrLocals)
    (n : Node) : (rerrLoop env s pairs l).GivesBackFrom n ∅ := by
  -- Each pair locks at most its own entry, and nothing is held between two of them.
  induction pairs generalizing l n with
  | nil =>
      unfold rerrLoop
      split
      · exact acceptPacket_givesBack n
      · exact givesBack_op Op.apply _ _ n ∅ (acceptPacket_givesBack _)
  | cons pair rest ih =>
      refine givesBack_read Op.apply _ n ∅ ?_
      cases n.getRoutingEntry pair.1 with
      | none => exact ih l n
      | some e =>
          simp only []
          by_cases hthrough : e.goesThrough s = true
          · rw [if_pos hthrough]
            exact givesBack_lock Op.apply (slotOf pair.1) _ n ∅
              (fun hk => givesBack_unlock_insert Op.apply (slotOf pair.1) _ _ ∅ hk (ih _ _))
          · rw [if_neg hthrough]
            exact ih l n

theorem recvRerr_givesBack (env : Env) (s : U32) (header : RerrHeader) (destPairs : Nat → U32)
    (n : Node) : (recvRerr env s header destPairs).GivesBackFrom n ∅ :=
  rerrLoop_givesBack env s _ _ n

/-! ### Data packets -/

theorem incomingDataMessage_givesBack (env : Env) (src dest : U32) (n : Node) :
    (incomingDataMessage env src dest).GivesBackFrom n ∅ := by
  refine givesBack_read Op.apply _ n ∅ ?_
  split
  · exact locked_givesBack src _ acceptPacket n ∅ (acceptPacket_givesBack _)
  · exact acceptPacket_givesBack n

theorem sendRreq_givesBack (env : Env) (dest : U32) (n : Node) :
    (sendRreq env dest).GivesBackFrom n ∅ := by
  have hstart : ∀ n : Node, Handler.GivesBackFrom (locked dest (.startSearch dest)
      (.op (.beginWait dest) fun _ _ => .ret .waits)) n ∅ := fun n =>
    locked_givesBack dest _ _ n ∅ (givesBack_op Op.apply _ _ _ ∅ (waits_givesBack _))
  refine givesBack_op Op.apply _ _ n ∅ ?_
  generalize (Op.create env dest 0 .seqInvalid 0 0 (toU32 myRouteTimeout)).apply n = n'
  unfold startOrJoin
  split
  · exact dropPacket_givesBack n'
  · split
    · exact dropPacket_givesBack n'
    · split
      · exact givesBack_op Op.apply _ _ n' ∅ (waits_givesBack _)
      · split
        · exact hstart n'
        · exact givesBack_op Op.apply _ _ n' ∅ (hstart _)

theorem outgoingMessage_givesBack (env : Env) (dest : U32) (n : Node) :
    (outgoingMessage env dest).GivesBackFrom n ∅ := by
  refine givesBack_read Op.apply _ n ∅ ?_
  split
  · exact acceptPacket_givesBack n
  · split
    · exact sendRreq_givesBack env dest n
    · split
      · exact locked_givesBack dest _ acceptPacket n ∅ (acceptPacket_givesBack _)
      · split
        · exact acceptPacket_givesBack n
        · split
          · exact locked_givesBack dest _ _ n ∅ (sendRreq_givesBack env dest _)
          · exact sendRreq_givesBack env dest n

/-! ### Forwarded packets -/

/-- The destination has an entry that is not valid, and its next hop an entry of
    another address. -/
def KeepsHop (dest : U32) (n : Node) : Prop :=
  ∃ e hop, n.getRoutingEntry dest = some e ∧ e.status ≠ .routeValid ∧
    n.getRoutingEntry e.nextHop = some hop ∧ hop.destIp ≠ e.destIp

theorem forwardedError_lockRun (dest destSeq : U32) (n : Node) (l : LockState (Fin 256)) :
    Prog.lockRun Op.apply (forwardedError dest destSeq) n l = some l := rfl

theorem forwardedError_givesBack (dest destSeq : U32) (n : Node) :
    (forwardedError dest destSeq).GivesBackFrom n ∅ := by
  intro l hl
  rw [forwardedError_lockRun, Option.some.injEq] at hl
  rw [← hl]
  exact ⟨rfl, rfl⟩

theorem forwardedPass_givesBack (env : Env) (src dest : U32) (srcEntry : Bool) (n : Node) :
    (forwardedPass env src dest srcEntry).GivesBackFrom n (insert (slotOf dest) ∅) := by
  have hunlock : ∀ n : Node, Handler.GivesBackFrom (.unlock (slotOf dest) acceptPacket) n
      (insert (slotOf dest) ∅) := fun n =>
    givesBack_unlock_insert Op.apply _ acceptPacket n ∅ (Finset.notMem_empty _)
      (acceptPacket_givesBack n)
  refine givesBack_op Op.apply _ _ n _ ?_
  cases srcEntry with
  | false => exact hunlock _
  | true => exact locked_givesBack src _ _ _ _ (hunlock _)

section Forwarded

variable (env : Env) (src dest : U32) (n : Node) (e : RoutingEntry)

/-- Without an entry for the next hop there is one mutex to give back. -/
theorem forwardedMessages_noHop (he : n.getRoutingEntry dest = some e)
    (hhop : n.getRoutingEntry e.nextHop = none) :
    (forwardedMessages env src dest).GivesBackFrom n ∅ := by
  refine givesBack_read Op.apply _ n ∅ ?_
  simp only [he, Option.isSome_some, if_true]
  refine givesBack_lock Op.apply _ _ n ∅ (fun hfree => ?_)
  refine givesBack_read Op.apply _ n _ ?_
  simp only [he, hhop]
  exact givesBack_unlock_insert Op.apply _ _ n ∅ hfree (forwardedError_givesBack dest _ n)

/-- The next hop is the destination: there is one mutex. -/
theorem forwardedOver_same (hopIp : U32) (hsame : slotOf hopIp = slotOf dest) (srcEntry : Bool) :
    (forwardedOver env src dest hopIp srcEntry false).GivesBackFrom n (insert (slotOf dest) ∅) := by
  refine givesBack_read Op.apply _ n _ ?_
  by_cases hboth : n.isValid dest = true ∧ n.isValid hopIp = true
  · rw [if_pos hboth]
    exact forwardedPass_givesBack env src dest srcEntry n
  · rw [if_neg hboth]
    by_cases hvalid : n.isValid dest = true
    · rw [if_pos hvalid]
      refine givesBack_blocked Op.apply _ _ n _ ?_
      rw [hsame]
      exact Finset.mem_insert_self _ _
    · rw [if_neg hvalid]
      exact givesBack_unlock_insert Op.apply _ _ n ∅ (Finset.notMem_empty _)
        (forwardedError_givesBack dest _ n)

/-- Over a next hop of its own, a valid destination gives both mutexes back or
    blocks for ever in the link break. -/
theorem forwardedOver_valid (hopIp : U32) (hdiff : slotOf hopIp ≠ slotOf dest)
    (hvalid : n.isValid dest = true) (srcEntry : Bool) :
    (forwardedOver env src dest hopIp srcEntry true).GivesBackFrom n
      (insert (slotOf hopIp) (insert (slotOf dest) ∅)) := by
  refine givesBack_read Op.apply _ n _ ?_
  by_cases hhop : n.isValid hopIp = true
  · rw [if_pos ⟨hvalid, hhop⟩, if_pos rfl]
    refine givesBack_unlock_insert Op.apply _ _ n _ ?_
      (forwardedPass_givesBack env src dest srcEntry n)
    rw [Finset.insert_empty, Finset.mem_singleton]
    exact hdiff
  · rw [if_neg (fun hboth => hhop hboth.2), if_pos hvalid]
    exact givesBack_blocked Op.apply _ _ n _ (Finset.mem_insert_self _ _)

/-- Over a next hop of its own, a destination that is not valid leaves the next
    hop's mutex held. -/
theorem forwardedOver_keeps (hopIp : U32) (hdiff : slotOf hopIp ≠ slotOf dest)
    (hinvalid : n.isValid dest = false) (srcEntry : Bool) :
    ¬ (forwardedOver env src dest hopIp srcEntry true).GivesBackFrom n
      (insert (slotOf hopIp) (insert (slotOf dest) ∅)) := by
  have hrun : ∃ l, Prog.lockRun Op.apply (forwardedOver env src dest hopIp srcEntry true) n
      { held := insert (slotOf hopIp) (insert (slotOf dest) ∅), wrong := false } = some l ∧
      slotOf hopIp ∈ l.held := by
    simp only [forwardedOver, Prog.lockRun, hinvalid, Bool.false_eq_true, false_and, if_false]
    exact ⟨_, forwardedError_lockRun dest _ n _,
      Finset.mem_erase.mpr ⟨hdiff, Finset.mem_insert_self _ _⟩⟩
  intro hback
  rcases hrun with ⟨l, hl, hin⟩
  rw [(hback l hl).1] at hin
  exact absurd hin (Finset.notMem_empty _)

end Forwarded

/-- The handler gives its mutexes back where it does not keep the next hop's, and
    only there. -/
theorem forwardedMessages_givesBack (env : Env) (src dest : U32) (n : Node) :
    (forwardedMessages env src dest).GivesBackFrom n ∅ ↔ ¬ KeepsHop dest n := by
  cases he : n.getRoutingEntry dest with
  | none =>
      refine ⟨fun _ ⟨e, hop, hfound, _⟩ => ?_, fun _ => ?_⟩
      · rw [he] at hfound
        cases hfound
      · refine givesBack_read Op.apply _ n ∅ ?_
        rw [he]
        exact forwardedError_givesBack dest 0 n
  | some e =>
      cases hhop : n.getRoutingEntry e.nextHop with
      | none =>
          refine ⟨?_, fun _ => forwardedMessages_noHop env src dest n e he hhop⟩
          rintro - ⟨e', hop, hfound, -, hfound', -⟩
          rw [he, Option.some.injEq] at hfound
          rw [← hfound, hhop] at hfound'
          cases hfound'
      | some hop =>
          have hkeeps : KeepsHop dest n ↔ e.status ≠ .routeValid ∧ hop.destIp ≠ e.destIp := by
            refine ⟨?_, fun hk => ⟨e, hop, he, hk.1, hhop, hk.2⟩⟩
            rintro ⟨e', hop', hfound, hs, hfound', hd⟩
            rw [he, Option.some.injEq] at hfound
            subst hfound
            rw [hhop, Option.some.injEq] at hfound'
            subst hfound'
            exact ⟨hs, hd⟩
          -- Entries of one slot are one entry, and the address tells the slot.
          have hkey := n.routes.keyed _ _ he
          have hkey' := n.routes.keyed _ _ hhop
          have hstart : (forwardedMessages env src dest).GivesBackFrom n ∅ ↔
              (if hop.destIp ≠ e.destIp then
                Handler.GivesBackFrom (.lock (slotOf e.nextHop)
                  (forwardedOver env src dest e.nextHop (n.getRoutingEntry src).isSome true)) n
                  (insert (slotOf dest) ∅)
              else (forwardedOver env src dest e.nextHop (n.getRoutingEntry src).isSome
                false).GivesBackFrom n (insert (slotOf dest) ∅)) := by
            simp only [Handler.GivesBackFrom, GivesBack, forwardedMessages, Prog.lockRun, he, hhop,
              Option.isSome_some, if_true, Finset.notMem_empty, if_false]
            split <;> rfl
          rw [hstart, hkeeps]
          by_cases hd : hop.destIp ≠ e.destIp
          · have hdiff : slotOf e.nextHop ≠ slotOf dest := by
              intro hslot
              rw [Node.getRoutingEntry_eq] at he hhop
              rw [hslot, he, Option.some.injEq] at hhop
              exact hd (hhop ▸ rfl)
            have hlock : Handler.GivesBackFrom (.lock (slotOf e.nextHop)
                  (forwardedOver env src dest e.nextHop (n.getRoutingEntry src).isSome true)) n
                  (insert (slotOf dest) ∅) ↔
                (forwardedOver env src dest e.nextHop (n.getRoutingEntry src).isSome
                  true).GivesBackFrom n (insert (slotOf e.nextHop) (insert (slotOf dest) ∅)) := by
              simp only [Handler.GivesBackFrom, GivesBack, Prog.lockRun, Finset.insert_empty,
                Finset.mem_singleton, if_neg hdiff]
            rw [if_pos hd, hlock]
            cases hs : e.status with
            | routeValid =>
                have hvalid : n.isValid dest = true := by
                  simp only [Node.isValid, he, Option.any_some, hs, decide_true]
                exact ⟨fun _ hk => hk.1 rfl,
                  fun _ => forwardedOver_valid env src dest n e.nextHop hdiff hvalid _⟩
            | routeInvalid =>
                have hinvalid : n.isValid dest = false := by
                  simp only [Node.isValid, he, Option.any_some, hs]
                  rfl
                exact ⟨fun hback =>
                    absurd hback (forwardedOver_keeps env src dest n e.nextHop hdiff hinvalid _),
                  fun hnot => absurd ⟨(fun hvalid => by cases hvalid), hd⟩ hnot⟩
          · rw [if_neg hd]
            have hsame : slotOf e.nextHop = slotOf dest := by
              rw [← hkey, ← hkey', not_not.mp hd]
            exact ⟨fun _ hk => hd hk.2,
              fun _ => forwardedOver_same env src dest n e.nextHop hsame _⟩

/-! ### All handlers -/

/-- The call keeps the mutex of a next hop. -/
def HandlerCall.KeepsHop : HandlerCall → Node → Prop
  | forwardedMessages _ _ dest, n => OpenManet.KeepsHop dest n
  | _, _ => False

/-- Started with no mutex held, in any state of the table, a call that returns has
    given back all its mutexes and unlocked none it did not hold, exactly when it
    does not keep the mutex of a next hop. -/
theorem gives_back_iff (call : HandlerCall) (n : Node) :
    call.handler.GivesBackFrom n ∅ ↔ ¬ call.KeepsHop n := by
  cases call with
  | recvRreq env s m => exact ⟨fun _ h => h, fun _ => recvRreq_givesBack env s m n⟩
  | recvRrep env s m => exact ⟨fun _ h => h, fun _ => recvRrep_givesBack env s m n⟩
  | recvRerr env s header pairs =>
      exact ⟨fun _ h => h, fun _ => recvRerr_givesBack env s header pairs n⟩
  | incomingDataMessage env src dest =>
      exact ⟨fun _ h => h, fun _ => incomingDataMessage_givesBack env src dest n⟩
  | outgoingMessage env dest => exact ⟨fun _ h => h, fun _ => outgoingMessage_givesBack env dest n⟩
  | forwardedMessages env src dest => exact forwardedMessages_givesBack env src dest n

/-- A route that has run out, over a neighbour that is still there. -/
def expiredOverNeighbour : List Input :=
  [receive 0x02000000 (replyAfter 1 0x03000000 5 0x01000000), ⟨.clear, .expire 0x03000000⟩]

/-- A packet forwarded along that route returns with the neighbour's mutex held. -/
theorem not_gives_back_expired :
    ¬ ∀ (call : HandlerCall) (ip bcast : U32) (hello : Nat → Byte) (inputs : List Input),
      call.handler.GivesBackFrom (run step (Node.boot ip bcast hello) inputs) ∅ := by
  intro hall
  have hback := hall (.forwardedMessages .clear 0x05000000 0x03000000) 0x01000000 0xFF000000
    (fun _ => 0) expiredOverNeighbour
  have hend : (Prog.lockRun Op.apply (forwardedMessages .clear 0x05000000 0x03000000)
      (run step (Node.boot 0x01000000 0xFF000000 fun _ => 0) expiredOverNeighbour)
      { held := ∅, wrong := false }).map (·.held) = some {2} := by decide
  rcases Option.map_eq_some_iff.mp hend with ⟨l, hl, hheld⟩
  rw [(hback l hl).1] at hheld
  exact absurd hheld (by decide)

end OpenManet
