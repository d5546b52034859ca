import OpenManet.Core.Machine
import OpenManet.Library.Counting

/-!
# What an Operation Does to the Table

Every operation works on one slot of the table at most: it makes an entry there,
removes it, or writes to it. `Op.effect` says which, and `apply_slots` that this
is all. An argument about entries then goes by the four effects, and the writes
are looked at once each, in isolation from the table they happen in.

No write changes an entry's address, so an entry stays the entry for its address
as long as it is in the table; `run_entries` is the induction over a run for a
property every write keeps.

The calls an operation makes into the packet filter library are `Op.calls`, and
`apply_log` says that the record of calls grows by these and nothing else.

## Main definitions

* `Effect`: What can happen to a slot.
* `Op.effect`: What an operation does.
* `Op.calls`: The calls it makes.
* `Node.Entries`, `Node.countEntries`: All entries have a property, so many have it.

## Theorems

* `apply_slots`: The table after an operation.
* `apply_log`: The record of calls after an operation.
* `calls_isRouteCall`: An operation that sends nothing asks for kernel routes only.
* `apply_onTable`: What does not look at the table, the record and the count stays.
* `log_step`, `stepCalls_of_ops`: The calls of a step are those of its operations.
* `apply_ipAddress`, `apply_sequenceNum`: A node keeps its address, and what becomes of
  its own number.
* `step_own`, `step_rreq`, `step_rrep`, `step_rerr`: What the delivery of a message does.
* `incomingControlMessage_meets`: Its operations are those of the handler of the message.
* `apply_sameThreads`: Most operations leave the threads alone.
* `apply_threads`, `apply_threads_survive`: Where the threads after an operation come
  from, and which are cancelled.
* `effect_keeps`: The writes keep the address.
* `effect_frame`: What a message about a route does not write.
* `entry_origin`, `entry_fate`: Where the entries after an operation come from, and
  what becomes of those before it.
* `run_entries`: What the writes keep holds of every entry in every run.
* `countEntries_update`: Counting entries across a write.
-/

namespace OpenManet

/-- What an operation does to the table. -/
inductive Effect where
  | keep
  | create (entry : RoutingEntry)
  | remove (ip : U32)
  | update (ip : U32) (f : RoutingEntry → RoutingEntry)

/-- The content of a slot after the effect, from its content before it. -/
def Effect.slot (i : Fin 256) (old : Option RoutingEntry) : Effect → Option RoutingEntry
  | keep => old
  | create entry => if i = slotOf entry.destIp then some (old.getD entry) else old
  | remove ip => if i = slotOf ip then none else old
  | update ip f => if i = slotOf ip then old.map f else old

/-- The effect of an operation on the table. -/
def Op.effect (n : Node) : Op → Effect
  | create env destIp destSeq validSeq nextHop hopCount timeOut =>
    .create (freshEntry env destIp destSeq validSeq nextHop hopCount timeOut)
  | previousHop env senderIp listed new =>
    .update senderIp (RoutingEntry.previousHop env listed new)
  | reverseRoute env senderIp m new =>
      .update m.srcIp (RoutingEntry.reverseRoute env senderIp m new)
  | hello env m new => .update m.destIp (RoutingEntry.hello env m new)
  | forwardRoute env senderIp m new =>
    .update m.destIp (RoutingEntry.forwardRoute env senderIp m new)
  | searchFound destIp => .update destIp RoutingEntry.searchFound
  | activate ip => .update ip RoutingEntry.activate
  | breakRoute env ip destSeq => .update ip (RoutingEntry.breakRoute env destSeq)
  | linkBreak env ip => .update ip (RoutingEntry.linkBreak env)
  | outgoingBreak env ip => .update ip (RoutingEntry.outgoingBreak env)
  | expireRoute env ip => .update ip (RoutingEntry.expireRoute env)
  | removeEntry ip => .remove ip
  | write ip w => .update ip w.apply
  | startSearch destAddr => .update destAddr (RoutingEntry.startSearch n.nextThread)
  | searchFailed env _ destAddr => .update destAddr (RoutingEntry.searchFailed env)
  | beginWait _ | moveWaiter _ _ | moveHello _ | incrementSequenceNum | writeSequenceNum _
  | sendRreq _ _ _ _ | sendUnicast _ _ | sendBroadcast _ => .keep

/-! ### The writes keep the address -/

section KeepsAddress

variable (env : Env) (senderIp : U32) (new : Bool) (e : RoutingEntry)

@[simp] theorem previousHop_destIp (listed : U32) :
    (e.previousHop env listed new).destIp = e.destIp := by
  rcases previousHop_eq env new e listed with ⟨t, h⟩
  rw [h]

@[simp] theorem reverseRoute_destIp (m : RreqHeader) :
    (e.reverseRoute env senderIp m new).destIp = e.destIp :=
  (reverseRoute_frame env senderIp new e m).destIp

@[simp] theorem hello_destIp (m : RrepHeader) : (e.hello env m new).destIp = e.destIp :=
  (hello_frame env new e m).destIp

@[simp] theorem forwardRoute_destIp (m : RrepHeader) :
    (e.forwardRoute env senderIp m new).destIp = e.destIp :=
  (forwardRoute_frame env senderIp new e m).destIp

@[simp] theorem activate_destIp : e.activate.destIp = e.destIp := by
  rw [activate_eq]

@[simp] theorem write_destIp (w : Write) : (w.apply e).destIp = e.destIp := by
  cases w <;> rfl

end KeepsAddress

/-- Whatever an operation writes to an entry, the address stays. -/
theorem effect_keeps (n : Node) (o : Op) (ip : U32) (f : RoutingEntry → RoutingEntry)
    (h : o.effect n = .update ip f) (e : RoutingEntry) : (f e).destIp = e.destIp := by
  cases o with
  | previousHop | reverseRoute | hello | forwardRoute | activate | write =>
      cases h
      simp only [previousHop_destIp, reverseRoute_destIp, hello_destIp, forwardRoute_destIp,
        activate_destIp, write_destIp]
  | searchFound | breakRoute | linkBreak | outgoingBreak | expireRoute | startSearch
  | searchFailed =>
      cases h
      rfl
  | create | removeEntry | beginWait | moveWaiter | moveHello | incrementSequenceNum
  | writeSequenceNum | sendRreq | sendUnicast | sendBroadcast => cases h

/-! ### The writes that leave searches alone -/

/-- The operation leaves `rreq_search` alone. -/
def Op.KeepsSearch : Op → Prop
  | searchFound _ | startSearch _ | searchFailed _ _ _ | write _ .searchNone
  | removeEntry _ => False
  | _ => True

/-- The operation writes to a route what a message says about it. -/
def Op.TakesMessage : Op → Prop
  | reverseRoute _ _ _ _ | hello _ _ _ | forwardRoute _ _ _ _ => True
  | _ => False

theorem effect_frame (n : Node) (o : Op) (ip : U32) (f : RoutingEntry → RoutingEntry)
    (heff : o.effect n = .update ip f) (htakes : o.TakesMessage) (e : RoutingEntry) :
    RouteFrame e (f e) := by
  cases o with
  | reverseRoute env s m new =>
      cases heff
      exact reverseRoute_frame env s new e m
  | hello env m new =>
      cases heff
      exact hello_frame env new e m
  | forwardRoute env s m new =>
      cases heff
      exact forwardRoute_frame env s new e m
  | _ => exact absurd htakes id

theorem effect_rreqSearch (n : Node) (o : Op) (hkeeps : o.KeepsSearch) (ip : U32)
    (f : RoutingEntry → RoutingEntry) (heff : o.effect n = .update ip f) (e : RoutingEntry) :
    (f e).rreqSearch = e.rreqSearch := by
  cases o with
  | previousHop env s l new =>
      cases heff
      rcases previousHop_eq env new e l with ⟨t, ht⟩
      rw [ht]
  | reverseRoute | hello | forwardRoute =>
      exact (effect_frame n _ ip f heff trivial e).rreqSearch
  | activate ip =>
      cases heff
      rw [activate_eq]
  | write ip w =>
      cases heff
      cases w with
      | searchNone => exact absurd hkeeps id
      | timer | stopTimer | precursor | forgetRreqId => rfl
  | breakRoute | linkBreak | outgoingBreak | expireRoute =>
      cases heff
      rfl
  | searchFound | startSearch | searchFailed => exact absurd hkeeps id
  | create | removeEntry | beginWait | moveWaiter | moveHello | incrementSequenceNum
  | writeSequenceNum | sendRreq | sendUnicast | sendBroadcast => cases heff

/-! ### The table after an operation -/

/-- Writing to an entry and going on without touching the table. -/
theorem onEntry_slots (ip : U32) (f : RoutingEntry → RoutingEntry)
    (rest : RoutingEntry → Node → Node) (hf : ∀ e, (f e).destIp = e.destIp)
    (hrest : ∀ e n, (rest e n).routes = n.routes) (n : Node) (i : Fin 256) :
    (Op.onEntry ip f rest n).routes.slots i =
      if i = slotOf ip then (n.routes.slots i).map f else n.routes.slots i := by
  unfold Op.onEntry
  rw [Node.getRoutingEntry_eq]
  cases hslot : n.routes.slots (slotOf ip) with
  | none =>
      by_cases hi : i = slotOf ip
      · rw [if_pos hi, hi, hslot]
        rfl
      · rw [if_neg hi]
  | some e =>
      simp only []
      rw [hrest, Node.updateEntry_slots_of_keep ip f hf]

@[simp] theorem releaseRoute_routes (a : U32) (n : Node) :
    (n.releaseRoute a).routes = n.routes := by
  unfold Node.releaseRoute
  split <;> rfl

theorem apply_slots (n : Node) (o : Op) (i : Fin 256) :
    (o.apply n).routes.slots i = (o.effect n).slot i (n.routes.slots i) := by
  cases o with
  | create env ip s v h c t => exact Node.createOrGet_slots env ip s v h c t n i
  | previousHop env s l new =>
      exact onEntry_slots s _ (fun _ n => n.call (.addUnicastRoutingEntry s s))
        (fun e => previousHop_destIp env new e l) (fun _ _ => rfl) n i
  | reverseRoute env s m new =>
      exact onEntry_slots m.srcIp _ (fun e n => n.call (.addUnicastRoutingEntry e.destIp s))
        (fun e => reverseRoute_destIp env s new e m) (fun _ _ => rfl) n i
  | hello env m new =>
      exact Node.updateEntry_slots_of_keep _ _ (fun e => hello_destIp env new e m) n i
  | forwardRoute env s m new =>
      simp only [Op.apply, Op.effect, Effect.slot]
      rw [onEntry_slots _ _ _ (fun e => forwardRoute_destIp env s new e m)]
      intro e n
      unfold Op.addForwardRoute
      cases new || fresherForward m e <;> rfl
  | searchFound ip =>
      simp only [Op.apply, Op.effect, Effect.slot]
      rw [onEntry_slots _ RoutingEntry.searchFound _ (fun _ => rfl)]
      intro e n
      split <;> rfl
  | activate ip =>
      simp only [Op.apply, Op.effect, Effect.slot]
      rw [onEntry_slots _ _ _ activate_destIp]
      intro e n
      split <;> rfl
  | breakRoute env ip s =>
      exact onEntry_slots ip (RoutingEntry.breakRoute env s)
        (fun e n => (n.call (.deleteEntry e.destIp e.nextHop)).releaseRoute e.activeRoute)
        (fun _ => rfl)
        (fun e n => releaseRoute_routes _ _) n i
  | linkBreak env ip =>
      simp only [Op.apply, Op.effect, Effect.slot]
      rw [onEntry_slots _ (RoutingEntry.linkBreak env) _ (fun _ => rfl)]
      intro e n
      cases e.precursorList with
      | nil => rfl
      | cons => exact releaseRoute_routes _ _
  | outgoingBreak env ip =>
      simp only [Op.apply, Op.effect, Effect.slot]
      rw [onEntry_slots _ (RoutingEntry.outgoingBreak env) _ (fun _ => rfl)]
      intro e n
      cases e.seqValid with
      | seqInvalid => rfl
      | seqValid => exact releaseRoute_routes _ _
  | expireRoute env ip =>
      simp only [Op.apply, Op.effect, Effect.slot]
      rw [onEntry_slots _ (RoutingEntry.expireRoute env) _ (fun _ => rfl)]
      intro e n
      cases e.seqValid with
      | seqInvalid => rfl
      | seqValid => exact releaseRoute_routes _ _
  | removeEntry ip =>
      simp only [Op.apply, Op.effect, Effect.slot]
      rw [Node.getRoutingEntry_eq]
      cases hslot : n.routes.slots (slotOf ip) with
      | none =>
          by_cases hi : i = slotOf ip
          · rw [if_pos hi, hi]
            exact hslot
          · rw [if_neg hi]
      | some e =>
          -- The entry is removed under its own address, which has the same slot.
          have hkey := n.routes.keyed _ _ hslot
          have hrem : ∀ n' : Node, n'.routes = n.routes.removeRoutingEntry e.destIp →
              n'.routes.slots i = if i = slotOf ip then none else n.routes.slots i := by
            intro n' h
            rw [h, RoutingTable.removeRoutingEntry_slots, hkey]
          apply hrem
          simp only []
          split <;> rfl
  | write ip w => exact Node.updateEntry_slots_of_keep _ _ (fun e => write_destIp e w) n i
  | startSearch ip =>
      exact Node.updateEntry_slots_of_keep ip (RoutingEntry.startSearch n.nextThread)
        (fun _ => rfl) n i
  | searchFailed env id ip =>
      exact Node.updateEntry_slots_of_keep ip (RoutingEntry.searchFailed env) (fun _ => rfl) n i
  | beginWait | moveWaiter | moveHello | incrementSequenceNum | writeSequenceNum | sendRreq
  | sendUnicast | sendBroadcast => rfl

/-- What a write leaves in the slot of its address. -/
theorem slot_of_update (n : Node) (o : Op) (ip : U32) (f : RoutingEntry → RoutingEntry)
    (heff : o.effect n = .update ip f) (e' : RoutingEntry)
    (he' : (o.apply n).routes.slots (slotOf ip) = some e') :
    ∃ e, n.getRoutingEntry ip = some e ∧ e' = f e := by
  rw [apply_slots, heff] at he'
  simp only [Effect.slot, if_true] at he'
  rcases Option.map_eq_some_iff.mp he' with ⟨e, he, rfl⟩
  exact ⟨e, he, rfl⟩

/-! ### The calls of an operation -/

/-- The calls made when an entry is found for the address. -/
def Node.whenFound (ip : U32) (calls : RoutingEntry → List ApiCall) (n : Node) : List ApiCall :=
  match n.getRoutingEntry ip with
  | none => []
  | some e => calls e

/-- The calls an operation makes, newest first. -/
def Op.calls (n : Node) : Op → List ApiCall
  | previousHop _ senderIp _ _ =>
    n.whenFound senderIp fun _ => [.addUnicastRoutingEntry senderIp senderIp]
  | reverseRoute _ senderIp m _ =>
    n.whenFound m.srcIp fun e => [.addUnicastRoutingEntry e.destIp senderIp]
  | forwardRoute _ senderIp m new =>
    n.whenFound m.destIp fun e =>
      let add : ApiCall := .addUnicastRoutingEntry m.destIp senderIp
      if new || fresherForward m e then [add, add] else [add]
  | breakRoute _ ip _ | linkBreak _ ip | outgoingBreak _ ip | expireRoute _ ip =>
    n.whenFound ip fun e => [.deleteEntry e.destIp e.nextHop]
  | sendRreq _ rreq ttl _ =>
    [.sendBroadcast (.rreq { rreq with rreqId := n.rreqId + 1, ttl := ttl })]
  | sendUnicast dest packet => [.sendUnicast dest packet]
  | sendBroadcast packet => [.sendBroadcast packet]
  | create _ _ _ _ _ _ _ | hello _ _ _ | searchFound _ | activate _ | removeEntry _ | write _ _
  | startSearch _ | beginWait _ | moveWaiter _ _ | moveHello _ | incrementSequenceNum
  | writeSequenceNum _ | searchFailed _ _ _ => []

/-- Writing to an entry and going on with these calls. -/
theorem onEntry_log (ip : U32) (f : RoutingEntry → RoutingEntry)
    (rest : RoutingEntry → Node → Node) (calls : RoutingEntry → List ApiCall)
    (hrest : ∀ e n, (rest e n).log = calls e ++ n.log) (n : Node) :
    (Op.onEntry ip f rest n).log = n.whenFound ip calls ++ n.log := by
  unfold Op.onEntry Node.whenFound
  cases n.getRoutingEntry ip with
  | none => rfl
  | some e => exact hrest e _

@[simp] theorem releaseRoute_log (a : U32) (n : Node) : (n.releaseRoute a).log = n.log := by
  unfold Node.releaseRoute
  split <;> rfl

/-- The record of calls grows by the calls of the operation. -/
theorem apply_log (n : Node) (o : Op) : (o.apply n).log = o.calls n ++ n.log := by
  cases o with
  | create env ip s v h c t =>
      simp only [Op.apply, Op.calls, List.nil_append]
      rw [Node.createOrGet_frame]
  | previousHop | reverseRoute =>
      exact onEntry_log _ _ _ _ (fun _ _ => rfl) n
  | forwardRoute env s m new =>
      refine onEntry_log _ _ _ _ (fun e n => ?_) n
      -- The route is installed once, or twice when the reply is accepted.
      unfold Op.addForwardRoute
      cases new || fresherForward m e <;> rfl
  | searchFound ip | activate ip =>
      simp only [Op.apply, Op.calls]
      rw [onEntry_log _ _ _ (fun _ => [])]
      · unfold Node.whenFound
        split <;> rfl
      · intro e n
        split <;> rfl
  | breakRoute env ip s =>
      exact onEntry_log _ _ _ _ (fun e n => releaseRoute_log _ _) n
  | linkBreak env ip =>
      refine onEntry_log _ _ _ _ (fun e n => ?_) n
      -- The call comes in both branches; only the release of the mark differs.
      cases e.precursorList with
      | nil => rfl
      | cons => exact congrArg (_ :: ·) (releaseRoute_log _ _)
  | outgoingBreak env ip | expireRoute env ip =>
      refine onEntry_log _ _ _ _ (fun e n => ?_) n
      cases e.seqValid with
      | seqInvalid => rfl
      | seqValid => exact releaseRoute_log _ _
  | removeEntry ip =>
      simp only [Op.apply, Op.calls, List.nil_append]
      split
      · rfl
      · split <;> rfl
  | hello | write | startSearch | beginWait | moveWaiter | moveHello | incrementSequenceNum
  | writeSequenceNum | sendRreq | searchFailed | sendUnicast | sendBroadcast => rfl

/-- A call that changes the kernel's routes and sends nothing. -/
def ApiCall.IsRouteCall : ApiCall → Prop
  | addUnicastRoutingEntry _ _ | deleteEntry _ _ => True
  | sendUnicast _ _ | sendBroadcast _ => False

/-- An operation that hands a packet to the library. -/
def Op.SendsPacket : Op → Prop
  | sendRreq _ _ _ _ | sendUnicast _ _ | sendBroadcast _ => True
  | _ => False

/-- What the other operations ask of the library is about the kernel's routes. -/
theorem calls_isRouteCall (n : Node) (o : Op) (hsilent : ¬ o.SendsPacket) :
    ∀ c ∈ o.calls n, c.IsRouteCall := by
  intro c hc
  cases o with
  | sendRreq | sendUnicast | sendBroadcast => exact absurd trivial hsilent
  | previousHop | reverseRoute | forwardRoute | breakRoute | linkBreak | outgoingBreak
  | expireRoute =>
      simp only [Op.calls, Node.whenFound] at hc
      split at hc
      · exact absurd hc List.not_mem_nil
      · -- One call, or the same one twice when `recv_rrep` installs the route.
        try split at hc
        all_goals
          simp only [List.mem_cons, List.not_mem_nil, or_false, or_self] at hc
          rw [hc]
          trivial
  | create | hello | searchFound | activate | removeEntry | write | startSearch | beginWait
  | moveWaiter | moveHello | incrementSequenceNum | writeSequenceNum | searchFailed =>
      exact absurd hc List.not_mem_nil

/-- A handler adds the calls of its operations to the record. -/
theorem exec_calls (P : ApiCall → Prop) (h : Handler) (n : Node)
    (hok : h.Meets Op.apply (fun o n => ∀ c ∈ o.calls n, P c) n) :
    ∃ calls, (h.exec Op.apply n).1.log = calls ++ n.log ∧ ∀ c ∈ calls, P c := by
  refine Prog.exec_relation Op.apply (fun o n => ∀ c ∈ o.calls n, P c)
    (fun n n' => ∃ calls, n'.log = calls ++ n.log ∧ ∀ c ∈ calls, P c) ?_ ?_ ?_ h n hok
  · exact fun n => ⟨[], rfl, nofun⟩
  · rintro n n' n'' ⟨calls, hcalls, hP⟩ ⟨calls', hcalls', hP'⟩
    refine ⟨calls' ++ calls, ?_, ?_⟩
    · rw [hcalls', hcalls, List.append_assoc]
    · intro c hc
      rcases List.mem_append.mp hc with hc | hc
      · exact hP' c hc
      · exact hP c hc
  · exact fun o n hP => ⟨o.calls n, apply_log n o, hP⟩

theorem stepCalls_of_append (n : Node) (input : Input) (calls : List ApiCall)
    (h : (step n input).log = calls ++ n.log) : stepCalls n input = calls := by
  unfold stepCalls
  rw [h, List.length_append, Nat.add_sub_cancel, List.take_left']
  rfl

theorem log_step (n : Node) (input : Input) :
    (step n input).log = stepCalls n input ++ n.log := by
  have hcalls : ∃ calls, (step n input).log = calls ++ n.log ∧ ∀ c ∈ calls, True :=
    exec_calls (fun _ => True) input.handler n
      (Prog.meets_of_forall Op.apply (fun _ _ _ _ => trivial) _ n)
  rcases hcalls with ⟨calls, hcalls, -⟩
  rw [stepCalls_of_append n input calls hcalls]
  exact hcalls

/-- What holds of the calls of every operation of a step holds of the calls of the
    step. -/
theorem stepCalls_of_ops (P : ApiCall → Prop) (n : Node) (input : Input)
    (hok : OpsMeet (fun o n => ∀ c ∈ o.calls n, P c) n input) : ∀ c ∈ stepCalls n input, P c := by
  rcases exec_calls P input.handler n hok with ⟨calls, hcalls, hP⟩
  rw [stepCalls_of_append n input calls hcalls]
  exact hP

/-! ### What stays of a node -/

/-- The operation touches the table, the record, the count of active routes and the
    threads at most. -/
def Op.OnTable : Op → Prop
  | startSearch _ | beginWait _ | moveWaiter _ _ | moveHello _ | incrementSequenceNum
  | writeSequenceNum _ | sendRreq _ _ _ _ => False
  | _ => True

/-- The operation leaves the threads of searches and their waiters alone. -/
def Op.LeavesThreads : Op → Prop
  | searchFound _ | removeEntry _ | startSearch _ | sendRreq _ _ _ _ | searchFailed _ _ _
  | beginWait _ | moveWaiter _ _ => False
  | _ => True

/-- What does not depend on the table, the record and the count stays, if threads
    are left alone or it does not depend on which are cancelled. -/
theorem apply_onTable {α : Type} (get : Node → α)
    (hget : ∀ (n : Node) routes log activeRoutes,
      get { n with routes := routes, log := log, activeRoutes := activeRoutes } = get n)
    (n : Node) (o : Op) (h : o.OnTable)
    (hcancels : o.LeavesThreads ∨ ∀ id n, get (Node.pthreadCancel id n) = get n) :
    get (o.apply n) = get n := by
  have hentry : ∀ ip f (rest : RoutingEntry → Node → Node), (∀ e n, get (rest e n) = get n) →
      get (Op.onEntry ip f rest n) = get n := by
    intro ip f rest hrest
    unfold Op.onEntry
    cases n.getRoutingEntry ip with
    | none => rfl
    | some e => exact (hrest e _).trans (hget n _ n.log n.activeRoutes)
  -- A call into the library touches the record only.
  have hcall : ∀ c (n : Node), get (n.call c) = get n :=
    fun c n => hget n n.routes _ n.activeRoutes
  have hrelease : ∀ a (n : Node), get (n.releaseRoute a) = get n := by
    intro a n
    unfold Node.releaseRoute
    split
    · exact hget n n.routes n.log _
    · rfl
  cases o with
  | create env ip s v h c t =>
      simp only [Op.apply]
      rw [Node.createOrGet_frame]
      exact hget n _ n.log n.activeRoutes
  | previousHop | reverseRoute => exact hentry _ _ _ (fun _ _ => hcall _ _)
  | forwardRoute env s m new =>
      refine hentry _ _ _ (fun e n => ?_)
      unfold Op.addForwardRoute
      cases new || fresherForward m e with
      | true => exact (hcall _ _).trans (hcall _ _)
      | false => exact hcall _ _
  | searchFound ip =>
      simp only [Op.apply]
      refine hentry _ _ _ (fun e n => ?_)
      split
      · exact hcancels.resolve_left id _ _
      · rfl
  | activate ip =>
      simp only [Op.apply]
      refine hentry _ _ _ (fun e n => ?_)
      split
      · exact hget n n.routes n.log _
      · rfl
  | breakRoute => exact hentry _ _ _ (fun e n => (hrelease _ _).trans (hcall _ _))
  | linkBreak env ip =>
      simp only [Op.apply]
      refine hentry _ _ _ (fun e n => ?_)
      -- Without precursors the route is not released.
      cases e.precursorList with
      | nil => exact hcall _ _
      | cons => exact (hcall _ _).trans (hrelease _ _)
  | outgoingBreak | expireRoute =>
      simp only [Op.apply]
      refine hentry _ _ _ (fun e n => ?_)
      cases e.seqValid with
      | seqInvalid => exact hcall _ _
      | seqValid => exact (hrelease _ _).trans (hcall _ _)
  | removeEntry ip =>
      simp only [Op.apply]
      split
      · rfl
      · -- The thread that searches for the entry is cancelled before it is freed.
        split
        · exact (hcancels.resolve_left id _ _).trans (hget n _ n.log n.activeRoutes)
        · exact hget n _ n.log n.activeRoutes
  | hello | write => exact hget n _ n.log n.activeRoutes
  | searchFailed =>
      exact (hcancels.resolve_left id _ _).trans (hget n _ n.log n.activeRoutes)
  | sendUnicast | sendBroadcast => exact hcall _ _
  | startSearch | beginWait | moveWaiter | moveHello | incrementSequenceNum | writeSequenceNum
  | sendRreq =>
      exact absurd h id

/-- What does not depend on these stays. -/
theorem apply_keeps {α : Type} (get : Node → α)
    (hget : ∀ (n : Node) routes log activeRoutes threads, get { n with routes := routes, log := log
                                                                       activeRoutes := activeRoutes
                                                                       threads := threads } = get n)
    (n : Node) (o : Op) (h : o.OnTable) : get (o.apply n) = get n :=
  apply_onTable get (fun n routes log activeRoutes => hget n routes log activeRoutes n.threads)
    n o h (Or.inr fun _ n => hget n n.routes n.log n.activeRoutes _)

/-- A node keeps its address. -/
@[simp] theorem apply_ipAddress (n : Node) (o : Op) : (o.apply n).ipAddress = n.ipAddress := by
  by_cases h : o.OnTable
  · exact apply_keeps Node.ipAddress (fun _ _ _ _ _ => rfl) n o h
  · cases o with
    | startSearch | beginWait | moveWaiter | moveHello | incrementSequenceNum | writeSequenceNum
    | sendRreq =>
        rfl
    | _ => exact absurd trivial h

/-- The own sequence number after an operation. -/
def Op.ownNumber (n : Node) : Op → U32
  | incrementSequenceNum => n.sequenceNum + 1
  | writeSequenceNum seq => seq
  | _ => n.sequenceNum

theorem apply_sequenceNum (n : Node) (o : Op) : (o.apply n).sequenceNum = o.ownNumber n := by
  by_cases h : o.OnTable
  · have hkeeps := apply_keeps Node.sequenceNum (fun _ _ _ _ _ => rfl) n o h
    cases o with
    | incrementSequenceNum | writeSequenceNum => exact absurd h id
    | _ => exact hkeeps
  · cases o with
    | startSearch | beginWait | moveWaiter | moveHello | incrementSequenceNum | writeSequenceNum
    | sendRreq =>
        rfl
    | _ => exact absurd trivial h

theorem apply_helloStage (n : Node) (o : Op) (h : ∀ stage, o ≠ .moveHello stage) :
    (o.apply n).helloStage = n.helloStage := by
  by_cases htable : o.OnTable
  · exact apply_keeps Node.helloStage (fun _ _ _ _ _ => rfl) n o htable
  · cases o with
    | startSearch | beginWait | moveWaiter | incrementSequenceNum | writeSequenceNum | sendRreq =>
        rfl
    | moveHello stage => exact absurd rfl (h stage)
    | _ => exact absurd trivial htable

theorem step_ipAddress (n : Node) (input : Input) : (step n input).ipAddress = n.ipAddress :=
  Prog.exec_invariant Op.apply (fun _ _ => True) (fun n' => n'.ipAddress = n.ipAddress)
    (fun o n' hn _ => (apply_ipAddress n' o).trans hn) input.handler n rfl
    (Prog.meets_of_forall Op.apply (fun _ _ => trivial) _ n)

/-! ### Deliveries, and the short handlers -/

section Deliveries

variable (n : Node) (env : Env) (s : U32)

/-- A node does not listen to itself. -/
theorem step_own (message : ControlMessage) :
    step n { env := env, event := .control n.ipAddress message } = n := by
  simp only [step, programStep, Input.handler, incomingControlMessage, Prog.exec, if_pos]
  rfl

/-- The node after the delivery of a request. -/
theorem step_rreq (m : RreqHeader) :
    step n { env := env, event := .control s (.rreq m) } =
      if s = n.ipAddress then n else ((recvRreq env s m).exec Op.apply n).1 := by
  simp only [step, programStep, Input.handler, incomingControlMessage, Prog.exec]
  split <;> rfl

theorem step_rrep (m : RrepHeader) :
    step n { env := env, event := .control s (.rrep m) } =
      if s = n.ipAddress then n else ((recvRrep env s m).exec Op.apply n).1 := by
  simp only [step, programStep, Input.handler, incomingControlMessage, Prog.exec]
  split <;> rfl

theorem step_rerr (header : RerrHeader) (destPairs : Nat → U32) :
    step n { env := env, event := .control s (.rerr header destPairs) } =
      if s = n.ipAddress then n else ((recvRerr env s header destPairs).exec Op.apply n).1 := by
  simp only [step, programStep, Input.handler, incomingControlMessage, Prog.exec]
  split <;> rfl

variable (ok : Op → Node → Prop)

/-- What the operations of the message's own handler meet, those of the delivery meet. -/
theorem incomingControlMessage_meets (message : ControlMessage)
    (h : s ≠ n.ipAddress → match message with
      | .rreq m => (recvRreq env s m).Meets Op.apply ok n
      | .rrep m => (recvRrep env s m).Meets Op.apply ok n
      | .rerr header destPairs => (recvRerr env s header destPairs).Meets Op.apply ok n) :
    (incomingControlMessage env s message).Meets Op.apply ok n := by
  simp only [incomingControlMessage, Prog.Meets]
  split
  · trivial
  · rename_i hother
    cases message with
    | rreq | rrep | rerr => exact h hother

theorem incomingDataMessage_meets (src dest : U32)
    (h : dest = n.ipAddress → ok (.write src (.timer env (toU32 activeRouteTimeout))) n) :
    (incomingDataMessage env src dest).Meets Op.apply ok n := by
  simp only [incomingDataMessage, Prog.Meets]
  split
  · rename_i hown
    exact ⟨h hown.1, trivial⟩
  · trivial

theorem rreqIdFunc_meets (ip : U32) (h : ok (.write ip .forgetRreqId) n) :
    (rreqIdFunc ip).Meets Op.apply ok n := by
  simp only [rreqIdFunc, Prog.Meets]
  split
  · exact ⟨h, trivial⟩
  · trivial

theorem helloInterval_meets
    (htest : n.activeRoutes ≠ 0 → ok (.moveHello .sleeping) n)
    (hsend : n.helloStage = .sleeping →
      ok (.sendBroadcast (.rrep (generateRrepMessage n.helloBlock 0 n.ipAddress n.sequenceNum 0
        (toU32 (allowedHelloLoss * helloIntervalMs))) [])) n)
    (hback : ∀ n', ok (.moveHello .spinning) n') : helloInterval.Meets Op.apply ok n := by
  simp only [helloInterval, Prog.Meets]
  cases hstage : n.helloStage with
  | spinning =>
      simp only []
      split
      · trivial
      · rename_i hactive
        exact ⟨htest hactive, trivial⟩
  | sleeping => exact ⟨hsend hstage, hback _, trivial⟩

end Deliveries

/-! ### The previous-hop section -/

/-- The node after the previous-hop section. -/
def afterPreviousHop (env : Env) (s listed : U32) (n : Node) : Node :=
  (Op.previousHop env s listed (n.isNew s)).apply
    ((Op.create env s 0 .seqInvalid s 0 (toU32 activeRouteTimeout)).apply n)

/-- The entry the previous-hop section works on. -/
def previousHopEntry (env : Env) (s : U32) (n : Node) : RoutingEntry :=
  (n.getRoutingEntry s).getD (freshEntry env s 0 .seqInvalid s 0 (toU32 activeRouteTimeout))

section PreviousHop

variable (env : Env) (s listed : U32) (n : Node)

theorem create_getRoutingEntry :
    ((Op.create env s 0 .seqInvalid s 0 (toU32 activeRouteTimeout)).apply n).getRoutingEntry s =
      some (previousHopEntry env s n) := by
  rw [Node.getRoutingEntry_eq, apply_slots]
  simp only [Op.effect, Effect.slot, freshEntry, if_true]
  rfl

theorem afterPreviousHop_getRoutingEntry (d : U32) :
    (afterPreviousHop env s listed n).getRoutingEntry d =
      if slotOf d = slotOf s then
        some ((previousHopEntry env s n).previousHop env listed (n.isNew s))
      else n.getRoutingEntry d := by
  unfold afterPreviousHop
  rw [Node.getRoutingEntry_eq, apply_slots]
  simp only [Op.effect, Effect.slot]
  by_cases hd : slotOf d = slotOf s
  · rw [if_pos hd, if_pos hd, hd, ← Node.getRoutingEntry_eq, create_getRoutingEntry]
    rfl
  · rw [if_neg hd, if_neg hd, apply_slots]
    exact if_neg hd

theorem afterPreviousHop_log :
    (afterPreviousHop env s listed n).log = .addUnicastRoutingEntry s s :: n.log := by
  unfold afterPreviousHop
  rw [apply_log, apply_log, Op.calls, Node.whenFound, create_getRoutingEntry]
  rfl

theorem afterPreviousHop_ipAddress : (afterPreviousHop env s listed n).ipAddress = n.ipAddress := by
  unfold afterPreviousHop
  rw [apply_ipAddress, apply_ipAddress]

end PreviousHop

/-! ### What follows a route section -/

/-- The operations of the handlers behind the section that writes the route. -/
def Op.FollowsRoute : Op → Prop
  | activate _ | write _ (.precursor _) | writeSequenceNum _ | sendUnicast _ _
  | sendBroadcast _ => True
  | _ => False

theorem afterReverseRoute_follows (env : Env) (s : U32) (m : RreqHeader) (n n' : Node) :
    (afterReverseRoute env s m n).Meets Op.apply (fun o _ => o.FollowsRoute) n' := by
  unfold afterReverseRoute
  split
  · exact ⟨trivial, trivial, trivial, trivial⟩
  · -- It is not the destination: it answers from its table or passes the request on.
    simp only [answerOrForward, Prog.Meets]
    split
    · refine ⟨trivial, ?_⟩
      simp only [Prog.Meets]
      split
      · trivial
      · refine ⟨trivial, trivial, ?_⟩
        split
        · exact ⟨trivial, trivial⟩
        · trivial
    · split
      · trivial
      · exact ⟨trivial, trivial⟩

theorem afterForwardRoute_follows (m : RrepHeader) (n : Node) :
    (afterForwardRoute m).Meets Op.apply (fun o _ => o.FollowsRoute) n := by
  refine ⟨trivial, ?_⟩
  simp only []
  split
  · simp only [forwardRrep, Prog.Meets]
    split
    · exact ⟨trivial, trivial, trivial, trivial, trivial⟩
    · trivial
  · trivial

/-! ### The threads -/

/-- The node has the threads and waiters it had. -/
structure SameThreads (n n' : Node) : Prop where
  threads : n'.threads = n.threads
  nextThread : n'.nextThread = n.nextThread
  waiters : n'.waiters = n.waiters

theorem apply_sameThreads (n : Node) (o : Op) (h : o.LeavesThreads) :
    SameThreads n (o.apply n) := by
  by_cases htable : o.OnTable
  · have hkept := apply_onTable (fun n => (n.threads, n.nextThread, n.waiters))
      (fun _ _ _ _ => rfl) n o htable (Or.inl h)
    rcases Prod.mk.inj hkept with ⟨hthreads, hrest⟩
    rcases Prod.mk.inj hrest with ⟨hnext, hwaiters⟩
    exact ⟨hthreads, hnext, hwaiters⟩
  · cases o with
    | moveHello | incrementSequenceNum | writeSequenceNum => exact ⟨rfl, rfl, rfl⟩
    | startSearch | beginWait | moveWaiter | sendRreq => exact absurd h id
    | _ => exact absurd trivial htable

/-- The threads a `pthread_cancel` of an entry's thread leaves. -/
theorem pthreadCancel_threads (id : Nat) (n : Node) (t : SearchThread)
    (ht : t ∈ (n.pthreadCancel id).threads) : t ∈ n.threads ∧ t.id ≠ id := by
  simpa only [Node.pthreadCancel, List.mem_filter, decide_eq_true_eq] using ht

/-- Where the threads after an operation come from: they were there, or a search has
    just begun, or one of them has sent a request and moved on. -/
theorem apply_threads (n : Node) (o : Op) (t : SearchThread) (ht : t ∈ (o.apply n).threads) :
    t ∈ n.threads ∨
      (∃ dest, o = .startSearch dest ∧ t = ⟨n.nextThread, dest, .starting⟩) ∨
      ∃ t₀ ∈ n.threads, ∃ rreq ttl, o = .sendRreq t.id rreq ttl t.stage ∧
        t₀.id = t.id ∧ t₀.dest = t.dest := by
  by_cases hleaves : o.LeavesThreads
  · exact Or.inl ((apply_sameThreads n o hleaves).threads ▸ ht)
  · cases o with
    | searchFound ip =>
        simp only [Op.apply, Op.onEntry] at ht
        left
        split at ht
        · exact ht
        · split at ht
          · exact (pthreadCancel_threads _ _ t ht).1
          · exact ht
    | removeEntry ip =>
        simp only [Op.apply] at ht
        left
        split at ht
        · exact ht
        · split at ht
          · exact (pthreadCancel_threads _ _ t ht).1
          · exact ht
    | searchFailed env id ip => exact Or.inl (pthreadCancel_threads id _ t ht).1
    | startSearch dest =>
        rcases List.mem_append.mp ht with hold | hnew
        · exact Or.inl hold
        · exact Or.inr (Or.inl ⟨dest, rfl, List.mem_singleton.mp hnew⟩)
    | sendRreq id rreq ttl stage =>
        -- The thread that sends is moved on; the others are as they were.
        rcases List.mem_map.mp ht with ⟨t₀, ht₀, rfl⟩
        by_cases hid : t₀.id = id
        · right
          right
          rw [if_pos hid]
          exact ⟨t₀, ht₀, rreq, ttl, by rw [hid], rfl, rfl⟩
        · rw [if_neg hid]
          exact Or.inl ht₀
    | beginWait | moveWaiter => exact Or.inl ht
    | _ => exact absurd trivial hleaves

/-- The operation ends the search thread with this id. -/
def Op.Cancels (n : Node) : Op → Nat → Prop
  | searchFound ip, id | removeEntry ip, id =>
    ∃ e, n.getRoutingEntry ip = some e ∧ e.rreqMessageSender = id
  | searchFailed _ id' _, id => id' = id
  | _, _ => False

/-- Every other thread goes on, for the same destination. -/
theorem apply_threads_survive (n : Node) (o : Op) (t : SearchThread) (ht : t ∈ n.threads) :
    o.Cancels n t.id ∨ ∃ t' ∈ (o.apply n).threads, t'.id = t.id ∧ t'.dest = t.dest := by
  -- A cancellation takes away the thread of one number.
  have hkept : ∀ (n' : Node) id, t ∈ n'.threads → t.id ≠ id → t ∈ (n'.pthreadCancel id).threads :=
    fun n' id hin hid => List.mem_filter.mpr ⟨hin, decide_eq_true hid⟩
  by_cases hleaves : o.LeavesThreads
  · exact Or.inr ⟨t, (apply_sameThreads n o hleaves).threads ▸ ht, rfl, rfl⟩
  · cases o with
    | searchFound ip =>
        simp only [Op.apply, Op.onEntry, Op.Cancels]
        cases n.getRoutingEntry ip with
        | none => exact Or.inr ⟨t, ht, rfl, rfl⟩
        | some e =>
            by_cases hid : t.id = e.rreqMessageSender
            · exact Or.inl ⟨e, rfl, hid.symm⟩
            · right
              refine ⟨t, ?_, rfl, rfl⟩
              simp only []
              split
              · exact hkept _ _ ht hid
              · exact ht
    | removeEntry ip =>
        simp only [Op.apply, Op.Cancels]
        cases n.getRoutingEntry ip with
        | none => exact Or.inr ⟨t, ht, rfl, rfl⟩
        | some e =>
            by_cases hid : t.id = e.rreqMessageSender
            · exact Or.inl ⟨e, rfl, hid.symm⟩
            · right
              refine ⟨t, ?_, rfl, rfl⟩
              simp only []
              split
              · exact hkept _ _ ht hid
              · exact ht
    | searchFailed env id ip =>
        by_cases hid : t.id = id
        · exact Or.inl hid.symm
        · exact Or.inr ⟨t, hkept _ id ht hid, rfl, rfl⟩
    | startSearch ip => exact Or.inr ⟨t, List.mem_append_left _ ht, rfl, rfl⟩
    | sendRreq id rreq ttl stage =>
        refine Or.inr ⟨_, List.mem_map_of_mem ht, ?_⟩
        by_cases hid : t.id = id
        · rw [if_pos hid]
          exact ⟨rfl, rfl⟩
        · rw [if_neg hid]
          exact ⟨rfl, rfl⟩
    | beginWait | moveWaiter => exact Or.inr ⟨t, ht, rfl, rfl⟩
    | _ => exact absurd trivial hleaves

/-- Ids are handed out in order. -/
theorem apply_nextThread (n : Node) (o : Op) :
    (o.apply n).nextThread = match o with
      | .startSearch _ => n.nextThread + 1
      | _ => n.nextThread := by
  by_cases h : o.OnTable
  · have hkeeps := apply_keeps Node.nextThread (fun _ _ _ _ _ => rfl) n o h
    cases o with
    | startSearch => exact absurd h id
    | _ => exact hkeeps
  · cases o with
    | startSearch | beginWait | moveWaiter | moveHello | incrementSequenceNum | writeSequenceNum
    | sendRreq =>
        rfl
    | _ => exact absurd trivial h

/-- The search thread an entry names after a write: the one it named, none, or the
    one that has just begun. -/
theorem effect_sender (n : Node) (o : Op) (ip : U32) (f : RoutingEntry → RoutingEntry)
    (heff : o.effect n = .update ip f) (e : RoutingEntry) :
    (f e).rreqMessageSender = e.rreqMessageSender ∨ (f e).rreqMessageSender = 0 ∨
      (o = .startSearch ip ∧ (f e).rreqMessageSender = n.nextThread) := by
  cases o with
  | previousHop env s l new =>
      cases heff
      rcases previousHop_eq env new e l with ⟨t, ht⟩
      rw [ht]
      exact Or.inl rfl
  | reverseRoute | hello | forwardRoute =>
      exact Or.inl (effect_frame n _ ip f heff trivial e).rreqMessageSender
  | activate ip =>
      cases heff
      rw [activate_eq]
      exact Or.inl rfl
  | write ip w =>
      cases heff
      cases w <;> exact Or.inl rfl
  -- The outcome of a search forgets the thread, and the start of one names it.
  | searchFound | searchFailed =>
      cases heff
      exact Or.inr (Or.inl rfl)
  | startSearch ip =>
      cases heff
      exact Or.inr (Or.inr ⟨rfl, rfl⟩)
  | breakRoute | linkBreak | outgoingBreak | expireRoute =>
      cases heff
      exact Or.inl rfl
  | create | removeEntry | beginWait | moveWaiter | moveHello | incrementSequenceNum
  | writeSequenceNum | sendRreq | sendUnicast | sendBroadcast => cases heff

/-! ### Properties of all entries -/

/-- Every entry of the table has the property. -/
def Node.Entries (P : RoutingEntry → Prop) (n : Node) : Prop :=
  ∀ i e, n.routes.slots i = some e → P e

/-- An entry after an operation is a fresh one, one from before it, or what has been
    written to one. -/
theorem entry_origin (n : Node) (o : Op) (i : Fin 256) (e : RoutingEntry)
    (he : (o.apply n).routes.slots i = some e) :
    o.effect n = .create e ∨ n.routes.slots i = some e ∨
      ∃ ip f e₀, o.effect n = .update ip f ∧ i = slotOf ip ∧ n.routes.slots i = some e₀ ∧
        e = f e₀ := by
  rw [apply_slots] at he
  cases heff : o.effect n with
  | keep =>
      rw [heff] at he
      exact Or.inr (Or.inl he)
  | create fresh =>
      rw [heff] at he
      simp only [Effect.slot] at he
      -- A slot in use is not written over.
      split at he
      · cases hold : n.routes.slots i with
        | none =>
            rw [hold, Option.getD_none, Option.some.injEq] at he
            exact Or.inl (congrArg Effect.create he)
        | some old =>
            rw [hold, Option.getD_some] at he
            exact Or.inr (Or.inl he)
      · exact Or.inr (Or.inl he)
  | remove ip =>
      rw [heff] at he
      simp only [Effect.slot] at he
      split at he
      · cases he
      · exact Or.inr (Or.inl he)
  | update ip f =>
      rw [heff] at he
      simp only [Effect.slot] at he
      split at he
      · rcases Option.map_eq_some_iff.mp he with ⟨e₀, he₀, rfl⟩
        exact Or.inr (Or.inr ⟨ip, f, e₀, rfl, ‹_›, he₀, rfl⟩)
      · exact Or.inr (Or.inl he)

/-- An entry that is not removed stays as it is or is written to. -/
theorem entry_fate (n : Node) (o : Op) (i : Fin 256) (e : RoutingEntry)
    (he : n.routes.slots i = some e) (hremove : ∀ ip, o.effect n = .remove ip → i ≠ slotOf ip) :
    (o.apply n).routes.slots i = some e ∨
      ∃ ip f, o.effect n = .update ip f ∧ i = slotOf ip ∧
        (o.apply n).routes.slots i = some (f e) := by
  rw [apply_slots, he]
  cases heff : o.effect n with
  | keep => exact Or.inl rfl
  | create fresh =>
      simp only [Effect.slot, Option.getD_some, ite_self]
      exact Or.inl trivial
  | remove ip =>
      simp only [Effect.slot, if_neg (hremove ip heff)]
      exact Or.inl trivial
  | update ip f =>
      by_cases hi : i = slotOf ip
      · simp only [Effect.slot, if_pos hi, Option.map_some]
        exact Or.inr ⟨ip, f, rfl, hi, rfl⟩
      · simp only [Effect.slot, if_neg hi]
        exact Or.inl trivial

/-- An operation keeps a property of all entries when a fresh entry has it and
    the write keeps it. -/
theorem entries_apply (P : RoutingEntry → Prop) (o : Op) (n : Node) (hn : n.Entries P)
    (hcreate : ∀ e, o.effect n = .create e → P e)
    (hupdate : ∀ ip f e, o.effect n = .update ip f → P e → P (f e)) :
    (o.apply n).Entries P := by
  intro i e he
  rcases entry_origin n o i e he with hfresh | hold | ⟨ip, f, e₀, heff, -, he₀, rfl⟩
  · exact hcreate e hfresh
  · exact hn i e hold
  · exact hupdate ip f e₀ heff (hn i e₀ he₀)

/-- A property of a fresh entry that every write keeps holds of every entry in
    every state a run from start-up reaches. -/
theorem run_entries (P : RoutingEntry → Prop)
    (hcreate : ∀ o n e, Op.effect n o = .create e → P e)
    (hupdate : ∀ o n ip f e, Op.effect n o = .update ip f → P e → P (f e))
    (ip bcast : U32) (hello : Nat → Byte) (inputs : List Input) :
    (run step (Node.boot ip bcast hello) inputs).Entries P :=
  node_invariant_always (Node.Entries P)
    (fun o n hn => entries_apply P o n hn (hcreate o n) (hupdate o n)) _ inputs
    (fun i e he => absurd he (Node.boot_slots_ne ip bcast hello i e))

/-- The number of entries with a property. -/
def Node.countEntries (P : RoutingEntry → Bool) (n : Node) : Nat :=
  countTrue fun i => (n.routes.slots i).any P

/-- A write moves the number by what the entry it writes to counts for. -/
theorem countEntries_update (P : RoutingEntry → Bool) (n : Node) (o : Op) (ip : U32)
    (f : RoutingEntry → RoutingEntry) (heff : o.effect n = .update ip f) (e : RoutingEntry)
    (he : n.getRoutingEntry ip = some e) :
    (o.apply n).countEntries P + (P e).toNat = n.countEntries P + (P (f e)).toNat := by
  have hupdate := countTrue_update (fun i => ((o.apply n).routes.slots i).any P)
    (fun i => (n.routes.slots i).any P) (slotOf ip) (fun i hi => by
      rw [apply_slots, heff]
      exact congrArg (Option.any P) (if_neg hi))
  have hslot : (o.apply n).routes.slots (slotOf ip) = some (f e) := by
    rw [Node.getRoutingEntry_eq] at he
    rw [apply_slots, heff]
    simp only [Effect.slot, if_true, he, Option.map_some]
  rw [Node.getRoutingEntry_eq] at he
  simp only [hslot, he, Option.any_some] at hupdate
  exact hupdate

end OpenManet
