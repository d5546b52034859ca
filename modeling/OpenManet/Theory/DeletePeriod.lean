import OpenManet.Theory.Guards

/-!
# The Memory of a Broken Route

An entry that goes invalid keeps its sequence number for `DELETE_PERIOD`: every
section that makes it so starts its timer over with that much time, and a timer
that finds its entry invalid removes it. But a timer can be restarted without a
look at the status, and the new deadline need not be the later one. A data packet
gives the entry of its source `ACTIVE_ROUTE_TIMEOUT`, a hello the lifetime it
carries, a search that fails a little more than five seconds and each call that
waited for it half of one.

`Input.restart` is the timer a step restarts in this way. As long as no restart
of an invalid entry's timer falls short of the period, the deadline is never
earlier than the end of the period, whatever else happens to the node.

## Main definitions

* `Input.restart`: The timer a step restarts whatever the status of its entry.
* `RemembersUntil`: The deadline of an invalid entry is not early.
* `Forgotten`: A stretch of a run in which an entry goes invalid, stays invalid
  and is removed.

## Theorems

* `apply_remembers`: One operation.
* `handler_keeps`: The operations of a step that restarts no timer too early.
* `step_remembersUntil`: A step keeps the deadline or removes the entry.
* `remembers_deletePeriod`: Nothing is forgotten early in a run without such restarts.
* `forgotten_dataPacket`: A data packet has an entry forgotten early.
-/

namespace OpenManet

/-- `DELETE_PERIOD`, in nanoseconds. -/
def deleteNanos : Int := deletePeriod * 1000000

/-- A number of milliseconds from now, in nanoseconds. -/
def Env.ahead (env : Env) (ms : U32) : Int := env.now.nanos + ms.toNat * 1000000

theorem ahead_deletePeriod (env : Env) :
    env.ahead (toU32 deletePeriod) = env.now.nanos + deleteNanos := rfl

/-- The packet is passed on: the destination's route and that to its next hop are
    valid. -/
def Node.passes (dest : U32) (n : Node) : Bool :=
  (n.getRoutingEntry dest).any fun e => e.status = .routeValid && n.isValid e.nextHop

/-- The timer a step restarts without a look at the status of its entry, and the
    time it is given: that of a data packet's source, of the node a hello is
    about, of the destination of a search that fails or has failed. -/
def Input.restart (n : Node) (input : Input) : Option (U32 × U32) :=
  match input.event with
  | .data src dest =>
    if dest = n.ipAddress then some (src, toU32 activeRouteTimeout) else none
  | .forwarded src dest => if n.passes dest then some (src, toU32 activeRouteTimeout) else none
  | .control s (.rrep m) =>
    if s ≠ n.ipAddress ∧ m.srcIp = 0 ∧
        (n.getRoutingEntry m.destIp).any (fun e => takesHello m false e) then
      some (m.destIp, m.lifetime)
    else none
  | .search id =>
    match n.threads.find? (fun t => t.id = id) with
    | some ⟨_, dest, .retry _ i⟩ =>
      if i ≤ rreqRetries then none else some (dest, toU32 (2 * netTraversalTime))
    | _ => none
  | .wait k =>
    match n.waiters[k]? with
    | some ⟨dest, .decided .searchFailed⟩ => some (dest, 500)
    | _ => none
  | _ => none

/-- The step does not restart the timer of the slot's entry, invalid as it is, with
    a deadline before the given instant. -/
def RestartsAfter (i : Fin 256) (instant : Int) (n : Node) (input : Input) : Prop :=
  ∀ ip ms, input.restart n = some (ip, ms) → slotOf ip = i → ms ≠ 0 → n.isValid ip = false →
    instant ≤ input.env.ahead ms

/-- The slot has an entry, and if it is invalid its deadline is not before the
    given instant. -/
def RemembersUntil (i : Fin 256) (instant : Int) (n : Node) : Prop :=
  ∃ e, n.routes.slots i = some e ∧ (e.status = .routeInvalid → instant ≤ e.timeOut.nanos)

/-! ### One operation -/

/-- A condition on the operations under which the slot goes on remembering. -/
def Op.Keeps (i : Fin 256) (instant : Int) : Op → Node → Prop
  | breakRoute env _ _, _ | linkBreak env _, _ | outgoingBreak env _, _ | expireRoute env _, _ =>
    instant ≤ env.ahead (toU32 deletePeriod)
  | write ip (.timer env ms), n =>
    slotOf ip = i → ms ≠ 0 → n.isValid ip = false → instant ≤ env.ahead ms
  | hello env m new, n =>
    slotOf m.destIp = i → m.lifetime ≠ 0 → n.isValid m.destIp = false →
      (∀ e, n.getRoutingEntry m.destIp = some e → takesHello m new e) →
      instant ≤ env.ahead m.lifetime
  | searchFailed env _ ip, n =>
    slotOf ip = i → n.isValid ip = false → instant ≤ env.ahead (toU32 (2 * netTraversalTime))
  | removeEntry ip, _ => slotOf ip ≠ i
  | _, _ => True

/-- A restarted timer has the deadline it is given, or keeps its old one. -/
theorem setExpirationTimer_nanos (instant : Int) (env : Env) (ms : U32) (e : RoutingEntry)
    (hold : instant ≤ e.timeOut.nanos) (hms : ms ≠ 0 → instant ≤ env.ahead ms) :
    instant ≤ (e.setExpirationTimer env.now ms).timeOut.nanos := by
  unfold RoutingEntry.setExpirationTimer
  by_cases h0 : ms ≠ 0
  · simp only [if_pos h0]
    rw [addTimeMs_nanos]
    exact hms h0
  · simp only [if_neg h0]
    exact hold

/-- The section for hellos leaves the status and, if it takes the hello, restarts
    the timer. -/
theorem hello_timer (env : Env) (m : RrepHeader) (new : Bool) (e : RoutingEntry) :
    (e.hello env m new).status = e.status ∧
      ((e.hello env m new).timeOut = e.timeOut ∨ (takesHello m new e ∧
        (e.hello env m new).timeOut = (e.setExpirationTimer env.now m.lifetime).timeOut)) := by
  by_cases hm : takesHello m new e
  · unfold RoutingEntry.hello
    split
    · exact ⟨rfl, Or.inr ⟨hm, rfl⟩⟩
    · exact ⟨rfl, Or.inl rfl⟩
  · rw [hello_refused env new e m hm]
    exact ⟨rfl, Or.inl rfl⟩

/-- A write goes on remembering when it does so with the entry it finds. -/
theorem remembers_of_update (i : Fin 256) (instant : Int) (n : Node) (o : Op) (ip : U32)
    (f : RoutingEntry → RoutingEntry) (heff : o.effect n = .update ip f)
    (h : RemembersUntil i instant n)
    (hf : ∀ e, n.getRoutingEntry ip = some e → slotOf ip = i →
      (e.status = .routeInvalid → instant ≤ e.timeOut.nanos) →
      (f e).status = .routeInvalid → instant ≤ (f e).timeOut.nanos) :
    RemembersUntil i instant (o.apply n) := by
  rcases h with ⟨e, he, hdeadline⟩
  rcases entry_fate n o i e he (fun ip' hr => absurd (heff.symm.trans hr) nofun) with
    hsame | ⟨ip', f', heff', hi, hwritten⟩
  · exact ⟨e, hsame, hdeadline⟩
  · cases heff.symm.trans heff'
    refine ⟨f e, hwritten, hf e ?_ hi.symm hdeadline⟩
    rw [Node.getRoutingEntry_eq, ← hi, he]

theorem isValid_false (n : Node) (ip : U32) (e : RoutingEntry)
    (he : n.getRoutingEntry ip = some e) (hinvalid : e.status = .routeInvalid) :
    n.isValid ip = false := by
  rw [isValid_of_slot n ip e he, hinvalid]
  rfl

/-- The operation makes the entry valid, or leaves status and deadline. -/
theorem apply_remembers (i : Fin 256) (instant : Int) (o : Op) (n : Node)
    (h : RemembersUntil i instant n) (hok : o.Keeps i instant n) :
    RemembersUntil i instant (o.apply n) := by
  -- Operations that leave the status and the deadline alone.
  have hkeep : ∀ ip f, o.effect n = .update ip f →
      (∀ e, (f e).status = e.status ∧ (f e).timeOut = e.timeOut) →
      RemembersUntil i instant (o.apply n) := by
    intro ip f heff hf
    refine remembers_of_update i instant n o ip f heff h (fun e _ _ hold hinvalid => ?_)
    rw [(hf e).1] at hinvalid
    rw [(hf e).2]
    exact hold hinvalid
  -- Operations that make the route valid: there is nothing to remember.
  have hvalid : ∀ ip f, o.effect n = .update ip f → (∀ e, (f e).status = .routeValid) →
      RemembersUntil i instant (o.apply n) := by
    intro ip f heff hf
    refine remembers_of_update i instant n o ip f heff h (fun e _ _ _ hinvalid => ?_)
    rw [hf e] at hinvalid
    cases hinvalid
  -- Operations that break the route: the delete period begins anew.
  have hbroken : ∀ ip f (env : Env), o.effect n = .update ip f →
      (∀ e, (f e).timeOut = addTimeMs env.now (toU32 deletePeriod)) →
      instant ≤ env.ahead (toU32 deletePeriod) → RemembersUntil i instant (o.apply n) := by
    intro ip f env heff hf hlate
    refine remembers_of_update i instant n o ip f heff h (fun e _ _ _ _ => ?_)
    rw [hf e, addTimeMs_nanos]
    exact hlate
  cases o with
  | previousHop env s l new =>
      refine hvalid _ _ rfl (fun e => ?_)
      rcases previousHop_eq env new e l with ⟨t, ht⟩
      rw [ht]
  | reverseRoute env s m new =>
      exact hvalid _ _ rfl (fun e => (reverseRoute_up env s new e m).1)
  | forwardRoute env s m new => exact hvalid _ _ rfl (fun e => rfl)
  | hello env m new =>
      -- A HELLO may set the timer of a route without making it valid.
      refine remembers_of_update i instant n _ _ _ rfl h (fun e he hslot hold hinvalid => ?_)
      rcases hello_timer env m new e with ⟨hstatus, htime⟩
      rw [hstatus] at hinvalid
      rcases htime with hsame | ⟨htakes, hset⟩
      · rw [hsame]
        exact hold hinvalid
      · rw [hset]
        refine setExpirationTimer_nanos instant env m.lifetime e (hold hinvalid) (fun hms => ?_)
        refine hok hslot hms (isValid_false n _ e he hinvalid) (fun e' he' => ?_)
        cases he.symm.trans he'
        exact htakes
  | activate ip =>
      refine hkeep _ _ rfl (fun e => ?_)
      rw [activate_eq]
      exact ⟨rfl, rfl⟩
  | searchFound | startSearch => exact hkeep _ _ rfl (fun e => ⟨rfl, rfl⟩)
  | breakRoute env ip seq => exact hbroken _ _ env rfl (fun e => rfl) hok
  | linkBreak env ip => exact hbroken _ _ env rfl (fun e => rfl) hok
  | outgoingBreak env ip => exact hbroken _ _ env rfl (fun e => rfl) hok
  | expireRoute env ip => exact hbroken _ _ env rfl (fun e => rfl) hok
  | write ip w =>
      cases w with
      | timer env ms =>
          -- A deadline is set under the rule that it does not come too early.
          refine remembers_of_update i instant n _ _ _ rfl h (fun e he hslot hold hinvalid => ?_)
          exact setExpirationTimer_nanos instant env ms e (hold hinvalid)
            (fun hms => hok hslot hms (isValid_false n ip e he hinvalid))
      | stopTimer | precursor | searchNone | forgetRreqId =>
          exact hkeep _ _ rfl (fun e => ⟨rfl, rfl⟩)
  | searchFailed env id ip =>
      refine remembers_of_update i instant n _ _ _ rfl h (fun e he hslot hold hinvalid => ?_)
      exact setExpirationTimer_nanos instant env (toU32 (2 * netTraversalTime)) _ (hold hinvalid)
        (fun _ => hok hslot (isValid_false n ip e he hinvalid))
  | removeEntry ip =>
      -- The rule: the entry removed is another one.
      rcases h with ⟨e, he, hdeadline⟩
      refine ⟨e, ?_, hdeadline⟩
      rw [apply_slots, he]
      exact if_neg (Ne.symm hok)
  | create env ip s v hop c t =>
      rcases h with ⟨e, he, hdeadline⟩
      refine ⟨e, ?_, hdeadline⟩
      rw [apply_slots, he]
      simp only [Op.effect, Effect.slot, Option.getD_some, ite_self]
  | beginWait | moveWaiter | moveHello | incrementSequenceNum | writeSequenceNum | sendRreq
  | sendUnicast | sendBroadcast =>
      rcases h with ⟨e, he, hdeadline⟩
      refine ⟨e, ?_, hdeadline⟩
      rw [apply_slots, he]
      rfl

/-! ### The handlers -/

section Handlers

variable {i : Fin 256} {instant : Int}

/-- The operations behind a route section restart no timer. -/
theorem keeps_of_follows (o : Op) (n : Node) (h : o.FollowsRoute) : o.Keeps i instant n := by
  cases o with
  | write ip w =>
      cases w with
      | precursor p => trivial
      | timer | stopTimer | searchNone | forgetRreqId => exact absurd h id
  | activate | writeSequenceNum | sendUnicast | sendBroadcast => trivial
  | create | previousHop | reverseRoute | hello | forwardRoute | searchFound | breakRoute
  | linkBreak | outgoingBreak | expireRoute | removeEntry | startSearch | beginWait | moveWaiter
  | moveHello | incrementSequenceNum | sendRreq | searchFailed => exact absurd h id

theorem recvRreq_keeps (env : Env) (s : U32) (m : RreqHeader) (n : Node) :
    (recvRreq env s m).Meets Op.apply (Op.Keeps i instant) n := by
  refine ⟨trivial, trivial, ?_⟩
  simp only [Prog.Meets]
  split
  · trivial
  · split
    · trivial
    · exact ⟨trivial, trivial, Prog.Meets.imp (fun o n h => keeps_of_follows o n h) _ _
        (afterReverseRoute_follows env s (incrementHopRreq m) _ _)⟩

/-- The entry the section for hellos finds is the one from before it, if the slot
    has one. -/
theorem recvHello_keeps (env : Env) (s : U32) (m : RrepHeader) (n : Node)
    (hslot : ∃ e, n.routes.slots i = some e)
    (hlate : slotOf m.destIp = i → m.lifetime ≠ 0 → n.isValid m.destIp = false →
      (∀ e, n.getRoutingEntry m.destIp = some e → takesHello m false e) →
      instant ≤ env.ahead m.lifetime) :
    (recvHello env s m).Meets Op.apply (Op.Keeps i instant) n := by
  refine ⟨trivial, fun hi hms hinvalid htakes => ?_, trivial⟩
  rcases hslot with ⟨e, he⟩
  have hfound : n.getRoutingEntry m.destIp = some e := by
    rw [Node.getRoutingEntry_eq, hi, he]
  have hafter : ((Op.create env m.destIp m.destSeq .seqValid s (m.hopCount.setWidth 32)
      m.lifetime).apply n).getRoutingEntry m.destIp = some e := by
    rw [Node.getRoutingEntry_eq] at hfound ⊢
    rw [apply_slots, hfound]
    simp only [Op.effect, Effect.slot, Option.getD_some, ite_self]
  -- The entry is there already, so `recv_hello` finds it and does not create it.
  have hnew : n.isNew m.destIp = false := by
    rw [Node.isNew, hfound, Option.isNone_some]
  rw [isValid_of_slot _ _ e hafter, ← isValid_of_slot n _ e hfound] at hinvalid
  refine hlate hi hms hinvalid (fun e' he' => ?_)
  cases hfound.symm.trans he'
  rw [← hnew]
  exact htakes e hafter

/-- A request id or a search status is no concern of the section for hellos. -/
theorem recvRrep_keeps (env : Env) (s : U32) (m : RrepHeader) (n : Node)
    (hslot : ∃ e, n.routes.slots i = some e)
    (hlate : m.srcIp = 0 → slotOf m.destIp = i → m.lifetime ≠ 0 → n.isValid m.destIp = false →
      (∀ e, n.getRoutingEntry m.destIp = some e → takesHello m false e) →
      instant ≤ env.ahead m.lifetime) :
    (recvRrep env s m).Meets Op.apply (Op.Keeps i instant) n := by
  have hrest : ∀ n', (∃ e, n'.routes.slots i = some e) →
      (m.srcIp = 0 → slotOf m.destIp = i → m.lifetime ≠ 0 → n'.isValid m.destIp = false →
        (∀ e, n'.getRoutingEntry m.destIp = some e → takesHello m false e) →
        instant ≤ env.ahead m.lifetime) →
      Prog.Meets Op.apply (Op.Keeps i instant)
        (if m.srcIp = 0 then recvHello env s (incrementHopRrep m)
        else previousHopSection env s m.destIp <|
          installForwardRoute env s (incrementHopRrep m)) n' := by
    intro n' hslot' hlate'
    by_cases hhello : m.srcIp = 0
    · rw [if_pos hhello]
      exact recvHello_keeps env s (incrementHopRrep m) n' hslot' (hlate' hhello)
    · rw [if_neg hhello]
      exact ⟨trivial, trivial, trivial, trivial, Prog.Meets.imp
        (fun o n h => keeps_of_follows o n h) _ _ (afterForwardRoute_follows _ _)⟩
  simp only [recvRrep, publishFound, Prog.Meets]
  split
  · refine ⟨trivial, hrest _ ?_ (fun hhello hi hms hinvalid htakes => ?_)⟩
    · rcases hslot with ⟨e, he⟩
      have hkept : ∀ ip, (Op.searchFound m.destIp).effect n = .remove ip → i ≠ slotOf ip :=
        fun ip heff => by cases heff
      rcases entry_fate n (.searchFound m.destIp) i e he hkept with hsame | ⟨ip, f, -, -, hwritten⟩
      · exact ⟨e, hsame⟩
      · exact ⟨f e, hwritten⟩
    · -- Publishing the end of a search changes nothing the section looks at.
      rcases hslot with ⟨e, he⟩
      have hfound : n.getRoutingEntry m.destIp = some e := by
        rw [Node.getRoutingEntry_eq, hi, he]
      have hafter : ((Op.searchFound m.destIp).apply n).getRoutingEntry m.destIp =
          some e.searchFound := by
        rw [Node.getRoutingEntry_eq] at hfound ⊢
        rw [apply_slots, hfound]
        simp only [Op.effect, Effect.slot, if_true, Option.map_some]
      rw [isValid_of_slot _ _ _ hafter] at hinvalid
      refine hlate hhello hi hms ?_ (fun e' he' => ?_)
      · rw [isValid_of_slot n _ e hfound]
        exact hinvalid
      · cases hfound.symm.trans he'
        exact htakes e.searchFound hafter
  · exact hrest n hslot hlate

theorem rerrLoop_keeps (env : Env) (s : U32) (hlate : instant ≤ env.ahead (toU32 deletePeriod))
    (pairs : List (U32 × U32)) (l : RerrLocals) (n : Node) :
    (rerrLoop env s pairs l).Meets Op.apply (Op.Keeps i instant) n := by
  -- Each broken route is due a delete period from now, so no step is too early.
  induction pairs generalizing l n with
  | nil =>
      unfold rerrLoop
      split
      · trivial
      · refine ⟨?_, trivial⟩
        unfold RerrTarget.send
        split <;> trivial
  | cons pair rest ih =>
      simp only [rerrLoop, Prog.Meets]
      split
      · exact ih l n
      · split
        · exact ⟨hlate, ih _ _⟩
        · exact ih l n

theorem sendRreq_keeps (env : Env) (dest : U32) (n : Node) :
    (sendRreq env dest).Meets Op.apply (Op.Keeps i instant) n := by
  refine ⟨trivial, ?_⟩
  simp only [startOrJoin]
  split
  · trivial
  · split
    · trivial
    · split
      · exact ⟨trivial, trivial⟩
      · split
        · exact ⟨trivial, trivial, trivial⟩
        · exact ⟨trivial, trivial, trivial, trivial⟩

/-- Outside a search an outgoing packet restarts the timer of a valid entry only. -/
theorem outgoingMessage_keeps (env : Env) (dest : U32)
    (hlate : instant ≤ env.ahead (toU32 deletePeriod)) (n : Node) :
    (outgoingMessage env dest).Meets Op.apply (Op.Keeps i instant) n := by
  simp only [outgoingMessage, Prog.Meets]
  split
  · trivial
  · cases hfound : n.getRoutingEntry dest with
    | none => exact sendRreq_keeps env dest n
    | some e =>
        simp only []
        split
        · rename_i hactive
          -- The timer of a route in use is restarted, and that route is valid.
          refine ⟨fun _ _ hinvalid => ?_, trivial⟩
          have hvalid : e.status = .routeValid := by
            have hboth := hactive.1
            rw [RoutingEntry.isActive, Bool.and_eq_true, decide_eq_true_eq] at hboth
            exact hboth.1
          rw [isValid_of_slot n dest e hfound, hvalid] at hinvalid
          cases hinvalid
        · split
          · trivial
          · split
            · -- The route is broken first, then searched for.
              exact ⟨hlate, sendRreq_keeps env dest _⟩
            · exact sendRreq_keeps env dest n

theorem breakLoop_keeps (env : Env) (dest : U32)
    (hlate : instant ≤ env.ahead (toU32 deletePeriod)) (list : List U32) (l : BreakLocals)
    (n : Node) : (breakLoop env dest list l).Meets Op.apply (Op.Keeps i instant) n := by
  induction list generalizing l n with
  | nil =>
      refine ⟨?_, trivial⟩
      unfold RerrTarget.send
      split <;> trivial
  | cons ip rest ih =>
      simp only [breakLoop, Prog.Meets]
      split
      · exact ⟨hlate, ih _ _⟩
      · exact ih l n

/-- The timer of the destination is restarted while its route is valid, that of
    the next hop with the whole period. -/
theorem forwardedMessages_keeps (env : Env) (src dest : U32)
    (hlate : instant ≤ env.ahead (toU32 deletePeriod)) (n : Node)
    (hsrc : n.passes dest = true → slotOf src = i → n.isValid src = false →
      instant ≤ env.ahead (toU32 activeRouteTimeout)) :
    (forwardedMessages env src dest).Meets Op.apply (Op.Keeps i instant) n := by
  have hpass : ∀ srcEntry, n.isValid dest = true → n.passes dest = true →
      (forwardedPass env src dest srcEntry).Meets Op.apply (Op.Keeps i instant) n := by
    intro srcEntry hvalid hpasses
    refine ⟨fun _ _ hinvalid => absurd (hvalid.symm.trans hinvalid) nofun, ?_⟩
    cases srcEntry with
    | false => trivial
    | true =>
        refine ⟨fun hi _ hinvalid => hsrc hpasses hi ?_, trivial⟩
        -- Restarting the destination's timer leaves every status.
        rw [← hinvalid]
        unfold Node.isValid
        rw [Node.getRoutingEntry_eq, Node.getRoutingEntry_eq, apply_slots]
        simp only [Op.effect, Effect.slot]
        split
        · rw [Option.any_map]
          rfl
        · rfl
  simp only [forwardedMessages, Prog.Meets]
  split
  · simp only [Prog.Meets]
    split
    · exact ⟨trivial, trivial⟩
    · rename_i destination hdest
      split
      · exact ⟨trivial, trivial⟩
      · have hover : ∀ other, (forwardedOver env src dest destination.nextHop
            (n.getRoutingEntry src).isSome other).Meets Op.apply (Op.Keeps i instant) n := by
          intro other
          simp only [forwardedOver, Prog.Meets]
          split
          · rename_i hboth
            have hpasses : n.passes dest = true := by
              have hvalid := hboth.1
              rw [isValid_of_slot n dest destination hdest] at hvalid
              rw [Node.passes, hdest, Option.any_some, hvalid, hboth.2]
              rfl
            cases other with
            | false => exact hpass _ hboth.1 hpasses
            | true => exact hpass _ hboth.1 hpasses
          · split
            · simp only [forwardedBreak, Prog.Meets]
              split
              · trivial
              · exact ⟨fun _ _ _ => hlate, breakLoop_keeps env dest hlate _ _ _⟩
            · exact ⟨trivial, trivial⟩
        split
        · exact hover true
        · exact hover false
  · exact ⟨trivial, trivial⟩

theorem searchThreadStep_keeps (env : Env) (id : Nat) (n : Node)
    (hlate : RestartsAfter i instant n ⟨env, .search id⟩) :
    (searchThreadStep env id).Meets Op.apply (Op.Keeps i instant) n := by
  simp only [searchThreadStep, Prog.Meets]
  cases hfind : n.threads.find? (fun t => t.id = id) with
  | none => trivial
  | some t =>
      cases t with
      | mk tid dest stage =>
          -- The ring never gives up: it goes over into the retries.
          have hring : ∀ n' rreq ttl, (ringStep env ⟨tid, dest, stage⟩ rreq ttl).Meets Op.apply
              (Op.Keeps i instant) n' := by
            intro n' rreq ttl
            unfold ringStep
            split
            · exact ⟨trivial, trivial⟩
            · exact ⟨trivial, trivial⟩
          cases stage with
          | starting =>
              refine ⟨trivial, ?_⟩
              simp only [Prog.Meets]
              split
              · trivial
              · exact hring _ _ _
          | ring rreq ttl => exact hring n rreq ttl
          | retry rreq k =>
              simp only [retryStep]
              by_cases hk : k ≤ rreqRetries
              · rw [if_pos hk]
                exact ⟨trivial, trivial⟩
              · rw [if_neg hk]
                refine ⟨fun hi hinvalid => hlate dest _ ?_ hi (by decide) hinvalid, trivial⟩
                simp only [Input.restart, hfind, if_neg hk]

theorem waiterStep_keeps (env : Env) (k : Nat) (n : Node)
    (hlate : RestartsAfter i instant n ⟨env, .wait k⟩) :
    (waiterStep env k).Meets Op.apply (Op.Keeps i instant) n := by
  simp only [waiterStep, Prog.Meets]
  cases hwaiter : n.waiters[k]? with
  | none => trivial
  | some w =>
      cases w with
      | mk dest stage =>
          simp only []
          split
          · split
            · trivial
            · exact ⟨trivial, trivial⟩
          · exact ⟨trivial, trivial, trivial⟩
          · split
            · rename_i hfailed
              subst hfailed
              -- The caller of a failed search sets the timer to half a second.
              refine ⟨fun hi _ hinvalid => hlate dest 500 ?_ hi (by decide) hinvalid, trivial,
                trivial⟩
              simp only [Input.restart, hwaiter]
            · exact ⟨trivial, trivial, trivial⟩
          · trivial

/-- The operations of a step other than an expiration, when no timer is restarted
    too early. -/
theorem handler_keeps (n : Node) (input : Input) (hevent : ∀ ip, input.event ≠ .expire ip)
    (hslot : ∃ e, n.routes.slots i = some e)
    (hlate : instant ≤ input.env.ahead (toU32 deletePeriod))
    (hrestart : RestartsAfter i instant n input) :
    input.handler.Meets Op.apply (Op.Keeps i instant) n := by
  cases input with
  | mk env event =>
      cases event with
      | control s message =>
          refine incomingControlMessage_meets n env s _ message (fun hsender => ?_)
          cases message with
          | rreq m => exact recvRreq_keeps env s m n
          | rrep m =>
              refine recvRrep_keeps env s m n hslot (fun hhello hi hms hinvalid htakes => ?_)
              refine hrestart m.destIp m.lifetime ?_ hi hms hinvalid
              -- A HELLO sets the deadline from its own lifetime.
              rcases hslot with ⟨e, he⟩
              have hfound : n.getRoutingEntry m.destIp = some e := by
                rw [Node.getRoutingEntry_eq, hi, he]
              simp only [Input.restart]
              refine if_pos ⟨hsender, hhello, ?_⟩
              rw [hfound, Option.any_some]
              exact decide_eq_true (htakes e hfound)
          | rerr m destPairs => exact rerrLoop_keeps env s hlate _ _ n
      | data src dest =>
          refine incomingDataMessage_meets n env _ src dest (fun hown hi hms hinvalid => ?_)
          refine hrestart src _ ?_ hi hms hinvalid
          simp only [Input.restart, if_pos hown]
      | outgoing dest => exact outgoingMessage_keeps env dest hlate n
      | forwarded src dest =>
          refine forwardedMessages_keeps env src dest hlate n (fun hpasses hi hinvalid => ?_)
          refine hrestart src _ ?_ hi (by decide) hinvalid
          simp only [Input.restart, if_pos hpasses]
      | search id => exact searchThreadStep_keeps env id n hrestart
      | wait k => exact waiterStep_keeps env k n hrestart
      | expire ip => exact absurd rfl (hevent ip)
      | rreqIdExpire ip => exact rreqIdFunc_meets n _ ip trivial
      | hello =>
          exact helloInterval_meets n _ (fun _ => trivial) (fun _ => trivial) fun _ => trivial

end Handlers

/-! ### Steps and runs -/

/-- A timer runs out no earlier than at the deadline of its entry. -/
def ExpiresDue (n : Node) (input : Input) : Prop :=
  match input.event with
  | .expire ip => ∀ e, n.getRoutingEntry ip = some e → e.expirationThread = true →
      e.timeOut.nanos ≤ input.env.now.nanos
  | _ => True

instance (n : Node) (input : Input) : Decidable (ExpiresDue n input) := by
  unfold ExpiresDue
  split <;> infer_instance

/-- An expiration makes the slot's entry invalid with the whole period, removes it,
    or works elsewhere. -/
theorem expirationFunc_keeps (env : Env) (ip : U32) (i : Fin 256) (instant : Int) (n : Node)
    (hlate : instant ≤ env.ahead (toU32 deletePeriod))
    (hstays : ¬ (slotOf ip = i ∧ n.isValid ip = false)) :
    (expirationFunc env ip).Meets Op.apply (Op.Keeps i instant) n := by
  simp only [expirationFunc, Prog.Meets]
  split
  · simp only [Prog.Meets]
    split
    · exact ⟨hlate, trivial⟩
    · rename_i hinvalid
      exact ⟨fun hi => hstays ⟨hi, Bool.eq_false_iff.mpr hinvalid⟩, trivial⟩
  · trivial

/-- Only an expiration removes an entry. -/
theorem expire_of_remove (event : Event) (o : Op) (n : Node) (ip : U32)
    (hguard : o.Guard event n) (heff : o.effect n = .remove ip) : event = .expire ip := by
  cases o with
  | removeEntry ip' =>
      cases heff
      exact hguard.1
  | create | previousHop | reverseRoute | hello | forwardRoute | searchFound | activate
  | breakRoute | linkBreak | outgoingBreak | expireRoute | write | startSearch | beginWait
  | moveWaiter | moveHello | incrementSequenceNum | writeSequenceNum | sendRreq | searchFailed
  | sendUnicast | sendBroadcast => cases heff

/-- An entry that is gone after a step was removed by its own timer. -/
theorem expires_of_removed (i : Fin 256) (n : Node) (input : Input) (e : RoutingEntry)
    (he : n.routes.slots i = some e) (hgone : (step n input).routes.slots i = none) :
    ∃ ip, input.event = .expire ip ∧ slotOf ip = i ∧ e.expirationThread = true := by
  by_cases hexpire : ∃ ip, input.event = .expire ip ∧ slotOf ip = i
  · rcases hexpire with ⟨ip, hevent, hi⟩
    refine ⟨ip, hevent, hi, ?_⟩
    have hfound : n.getRoutingEntry ip = some e := by
      rw [Node.getRoutingEntry_eq, hi, he]
    cases hrunning : e.expirationThread with
    | true => rfl
    | false =>
        -- Without a running timer nothing happens.
        simp only [step, programStep, Input.handler, hevent, expirationFunc, Prog.exec, hfound,
          Option.any_some, hrunning, Bool.false_eq_true, if_false] at hgone
        cases he.symm.trans hgone
  · have hstays : ∃ e', (step n input).routes.slots i = some e' := by
      refine Prog.exec_invariant Op.apply (Op.Guard input.event)
        (fun n' => ∃ e', n'.routes.slots i = some e') (fun o n' hslot hguard => ?_) input.handler n
        ⟨e, he⟩ (handler_guard n input)
      rcases hslot with ⟨e', he'⟩
      rcases entry_fate n' o i e' he' (fun ip heff hi => hexpire
        ⟨ip, expire_of_remove input.event o n' ip hguard heff, hi.symm⟩) with
        hsame | ⟨ip, f, -, -, hwritten⟩
      · exact ⟨e', hsame⟩
      · exact ⟨f e', hwritten⟩
    rcases hstays with ⟨e', he'⟩
    cases hgone.symm.trans he'

/-- A step that restarts no timer too early keeps the deadline while the entry is
    there. -/
theorem step_remembersUntil (i : Fin 256) (instant : Int) (n : Node) (input : Input)
    (h : RemembersUntil i instant n) (hlate : instant ≤ input.env.ahead (toU32 deletePeriod))
    (hrestart : RestartsAfter i instant n input)
    (hstays : ∃ e, (step n input).routes.slots i = some e) :
    RemembersUntil i instant (step n input) := by
  have hslot : ∃ e, n.routes.slots i = some e := by
    rcases h with ⟨e, he, -⟩
    exact ⟨e, he⟩
  by_cases hevent : ∃ ip, input.event = .expire ip
  · rcases hevent with ⟨ip, hevent⟩
    by_cases hremoves : slotOf ip = i ∧ n.isValid ip = false
    · -- The timer finds its entry invalid: it is not running, or the entry goes.
      rcases hslot with ⟨e, he⟩
      have hfound : n.getRoutingEntry ip = some e := by
        rw [Node.getRoutingEntry_eq, hremoves.1, he]
      rcases hstays with ⟨e', he'⟩
      simp only [step, programStep, Input.handler, hevent, expirationFunc, Prog.exec] at he' ⊢
      by_cases hrunning : e.expirationThread = true
      · rw [if_pos (by rw [hfound, Option.any_some, hrunning])] at he'
        simp only [Prog.exec, hremoves.2, Bool.false_eq_true, if_false] at he'
        rw [apply_slots] at he'
        simp only [Op.effect, Effect.slot, if_pos hremoves.1.symm] at he'
        cases he'
      · rw [if_neg (by rw [hfound, Option.any_some]; exact hrunning)]
        exact h
    · have hkeeps : input.handler.Meets Op.apply (Op.Keeps i instant) n := by
        simp only [Input.handler, hevent]
        exact expirationFunc_keeps input.env ip i instant n hlate hremoves
      exact Prog.exec_invariant Op.apply (Op.Keeps i instant) (RemembersUntil i instant)
        (fun o n' hn hok => apply_remembers i instant o n' hn hok) input.handler n h hkeeps
  · have hkeeps := handler_keeps n input (fun ip he => hevent ⟨ip, he⟩) hslot hlate hrestart
    exact Prog.exec_invariant Op.apply (Op.Keeps i instant) (RemembersUntil i instant)
      (fun o n' hn hok => apply_remembers i instant o n' hn hok) input.handler n h hkeeps

/-- The step leaves an invalid entry in the slot. -/
def LeavesInvalid (i : Fin 256) (n : Node) (input : Input) : Prop :=
  ∃ e, (step n input).routes.slots i = some e ∧ e.status = .routeInvalid

/-- What the last of the steps leaves. -/
theorem leavesInvalid_last (i : Fin 256) (n : Node) (first : Input) (rest : List Input)
    (h : AllSteps step (LeavesInvalid i) n (first :: rest)) :
    ∃ e, (run step n (first :: rest)).routes.slots i = some e ∧ e.status = .routeInvalid := by
  induction rest generalizing n first with
  | nil => exact h.1
  | cons second rest ih => exact ih (step n first) second h.2

/-- A run that restarts no timer too early keeps the deadline. -/
theorem run_remembers (i : Fin 256) (instant : Int) (n : Node) (inputs : List Input)
    (h : RemembersUntil i instant n)
    (hlate : ∀ input ∈ inputs, instant ≤ input.env.ahead (toU32 deletePeriod))
    (hrestart : AllSteps step (RestartsAfter i instant) n inputs)
    (hinvalid : AllSteps step (LeavesInvalid i) n inputs) :
    RemembersUntil i instant (run step n inputs) := by
  induction inputs generalizing n with
  | nil => exact h
  | cons input rest ih =>
      rcases hinvalid.1 with ⟨e, he, -⟩
      have hnext := step_remembersUntil i instant n input h (hlate input List.mem_cons_self)
        hrestart.1 ⟨e, he⟩
      exact ih (step n input) hnext (fun a ha => hlate a (List.mem_cons_of_mem _ ha)) hrestart.2
        hinvalid.2

/-- A stretch of a run under a clock that does not go back and timers that do not
    run out early: one input makes the slot's valid entry invalid, others leave it
    so, and a last one removes it. -/
structure Forgotten (start : Node) (before : List Input) (lost : Input) (between : List Input)
    (last : Input) (i : Fin 256) : Prop where
  clock : (before ++ lost :: (between ++ [last])).Pairwise
    fun a b => a.env.now.nanos ≤ b.env.now.nanos
  due : AllSteps step ExpiresDue start (before ++ lost :: (between ++ [last]))
  valid : ∃ e, (run step start before).routes.slots i = some e ∧ e.status = .routeValid
  invalid : AllSteps step (LeavesInvalid i) (run step start before) (lost :: between)
  removed : (run step start (before ++ lost :: (between ++ [last]))).routes.slots i = none

/-- In every run in which no step restarts the timer of the invalid entry with a
    deadline before the end of the period, it is not removed before. -/
theorem remembers_deletePeriod (ip bcast : U32) (hello : Nat → Byte) (before : List Input)
    (lost : Input) (between : List Input) (last : Input) (i : Fin 256)
    (h : Forgotten (Node.boot ip bcast hello) before lost between last i)
    (hrestart : AllSteps step (RestartsAfter i (lost.env.now.nanos + deleteNanos))
      (step (run step (Node.boot ip bcast hello) before) lost) between) :
    lost.env.now.nanos + deleteNanos ≤ last.env.now.nanos := by
  rcases h with ⟨hclock, hdue, hvalid, hinvalid, hremoved⟩
  rw [run_append] at hremoved
  rw [allSteps_append] at hdue
  have hdue := hdue.2
  have hclock := (List.pairwise_append.mp hclock).2.1
  generalize run step (Node.boot ip bcast hello) before = n
    at hvalid hinvalid hremoved hdue hrestart
  rw [List.pairwise_cons] at hclock
  -- The clock does not go back behind the loss of the route.
  have hafter : ∀ input ∈ between ++ [last],
      lost.env.now.nanos + deleteNanos ≤ input.env.ahead (toU32 deletePeriod) := by
    intro input hmem
    have hle := hclock.1 input hmem
    rw [ahead_deletePeriod]
    omega
  have hlost : RemembersUntil i (lost.env.now.nanos + deleteNanos) (step n lost) := by
    rcases hvalid with ⟨e, he, hstatus⟩
    rcases hinvalid.1 with ⟨e', he', -⟩
    refine step_remembersUntil i _ n lost ⟨e, he, fun hs => absurd (hstatus.symm.trans hs) nofun⟩
      (le_of_eq (ahead_deletePeriod lost.env).symm) (fun ip ms _ hi _ hs => ?_) ⟨e', he'⟩
    rw [isValid_of_slot n ip e (by rw [Node.getRoutingEntry_eq, hi, he]), hstatus] at hs
    cases hs
  have hbetween :
      RemembersUntil i (lost.env.now.nanos + deleteNanos) (run step (step n lost) between) ∧
      ∃ e, (run step (step n lost) between).routes.slots i = some e ∧ e.status = .routeInvalid := by
    refine ⟨run_remembers i _ _ between hlost (fun input hm => ?_) hrestart hinvalid.2,
      leavesInvalid_last i n lost between hinvalid⟩
    exact hafter input (List.mem_append_left _ hm)
  rw [run_cons, run_append] at hremoved
  have hlast := ((allSteps_append _ _ _ _ _).mp hdue.2).2.1
  rcases hbetween with ⟨⟨e, he, hdeadline⟩, e', he', hstatus⟩
  cases he.symm.trans he'
  rcases expires_of_removed i _ last e he hremoved with ⟨ip', hevent, hi, hrunning⟩
  simp only [ExpiresDue, hevent] at hlast
  have hreached := hlast e (by rw [Node.getRoutingEntry_eq, hi, he]) hrunning
  exact le_trans (hdeadline hstatus) hreached

/-- An input at a second. -/
def atSecond (second : Int) (event : Event) : Input :=
  ⟨{ Env.clear with now := { tvSec := second, tvNsec := 0 } }, event⟩

/-- A neighbour's reply about a destination. -/
def routeLearned : List Input :=
  [atSecond 0 (.control 0x02000000 (replyAfter 1 0x03000000 5 0x01000000))]

/-- The neighbour has lost the destination. -/
def routeLost : Input := atSecond 1 (.control 0x02000000 (errorAbout 0x03000000 6))

/-- A data packet of the destination arrives over another way. -/
def dataAt (second : Int) : Input := atSecond second (.data 0x03000000 0x01000000)

/-- Shortly before the end of the period the packet does no harm. -/
theorem remembers_deletePeriod_lateData :
    routeLost.env.now.nanos + deleteNanos ≤
      (atSecond 18 (.expire 0x03000000)).env.now.nanos :=
  remembers_deletePeriod 0x01000000 0xFF000000 (fun _ => 0) routeLearned routeLost [dataAt 14]
    (atSecond 18 (.expire 0x03000000)) 3
    ⟨by decide, by decide, ⟨_, rfl, rfl⟩, ⟨⟨_, rfl, rfl⟩, ⟨_, rfl, rfl⟩, trivial⟩, by decide⟩
    ⟨fun ip ms hr _ _ _ => by cases hr; decide, trivial⟩

/-- Early on the packet has the entry forgotten after three seconds. -/
theorem forgotten_dataPacket :
    ¬ ∀ (ip bcast : U32) (hello : Nat → Byte) (before : List Input) (lost : Input)
        (between : List Input) (last : Input) (i : Fin 256),
      Forgotten (Node.boot ip bcast hello) before lost between last i →
      lost.env.now.nanos + deleteNanos ≤ last.env.now.nanos := by
  intro h
  have hlate := h 0x01000000 0xFF000000 (fun _ => 0) routeLearned routeLost [dataAt 2]
    (atSecond 5 (.expire 0x03000000)) 3
    ⟨by decide, by decide, ⟨_, rfl, rfl⟩, ⟨⟨_, rfl, rfl⟩, ⟨_, rfl, rfl⟩, trivial⟩, by decide⟩
  exact absurd hlate (by decide)

end OpenManet
