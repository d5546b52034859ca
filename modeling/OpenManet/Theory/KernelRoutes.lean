import OpenManet.Theory.Guards

/-!
# The Kernel's Routes

The packet filter library keeps the routes the kernel forwards by. A node never
reads them back: it calls `AddUnicastRoutingEntry` and `DeleteEntry` and assumes
that the outcome is what its own table says.

`kernelRoute` is that outcome, read off the record of calls. The table agrees
with it when each valid entry's next hop is the gateway of its address and no
invalid entry's address has a gateway.

The handlers keep this up to the places where the source writes one side without
the other. A previous hop is made valid, and a route to it added, without its
next hop being written. A request or a reply the update test refuses still makes
the entry valid and adds a route over its sender. A reply adds a route for the
address it names, which need not be the address of the entry found. And a route
left behind in one of these ways is there when an entry for its address is made.
`KernelOk` says that a step does none of this, or that a later section of the
same handler writes the same entry and so makes up for the previous hop.

The sections are looked at one by one. Outside the slot they work in they change
nothing, so `AgreeBut` follows the agreement of the other slots through them, and
each section that adds a route says when it leaves its own slot in agreement.

## Main definitions

* `kernelRoute`: The kernel's route for an address after some calls.
* `RoutesAgree`: The table and the kernel say the same.
* `KernelOk`: A step leaves neither side behind.

## Theorems

* `quiet_agrees`: Operations that add no route keep the agreement.
* `previousHop_settles`, `reverseRoute_settles`, `forwardRoute_settles`: The
  sections that add a route.
* `step_routes_agree`: A step under the condition keeps the agreement.
* `routes_agree`: In a run under the condition the two agree in every state.
* `not_routes_agree_neighbourReply`: Without it they need not.
-/

namespace OpenManet

/-- The gateway of an address after these calls, the newest call first. -/
def kernelRoute : List ApiCall → U32 → Option U32
  | [], _ => none
  | .addUnicastRoutingEntry dest gateway :: earlier, ip =>
    if ip = dest then some gateway else kernelRoute earlier ip
  | .deleteEntry dest gateway :: earlier, ip =>
    if ip = dest ∧ kernelRoute earlier ip = some gateway then none else kernelRoute earlier ip
  | .sendUnicast _ _ :: earlier, ip => kernelRoute earlier ip
  | .sendBroadcast _ :: earlier, ip => kernelRoute earlier ip

/-- The entry and the kernel's route for its address say the same. -/
def EntryAgrees (log : List ApiCall) (e : RoutingEntry) : Prop :=
  (e.status = .routeValid → kernelRoute log e.destIp = some e.nextHop) ∧
    (e.status = .routeInvalid → kernelRoute log e.destIp = none)

/-- The table and the kernel say the same. -/
def RoutesAgree (n : Node) : Prop :=
  n.Entries (EntryAgrees n.log)

/-- Making the entry valid and adding routes over the sender for the addresses
    `ips` keeps the two sides together when `nextHop` is the entry's next hop
    afterwards: its address is among them and the sender is its next hop, or its
    address is not and nothing changes. -/
def AddAgrees (ips : List U32) (senderIp nextHop : U32) (e : RoutingEntry) : Prop :=
  if ips.contains e.destIp then nextHop = senderIp else e.status = .routeValid ∧ nextHop = e.nextHop

/-- `recv_rreq` goes on to the reverse route. -/
def ReachesReverseRoute (m : RreqHeader) (n : Node) : Prop :=
  m.srcIp ≠ n.ipAddress ∧ (n.getRoutingEntry m.srcIp).any (isDuplicate n.ipAddress m) = false

/-- A request leaves neither side behind. -/
def RreqKernelOk (senderIp : U32) (m : RreqHeader) (n : Node) : Prop :=
  (∀ e, n.getRoutingEntry senderIp = some e →
    AddAgrees [senderIp] senderIp e.nextHop e ∨
      (slotOf m.srcIp = slotOf senderIp ∧ ReachesReverseRoute m n)) ∧
  (ReachesReverseRoute m n → ∀ e, n.getRoutingEntry m.srcIp = some e →
    fresherReverse (incrementHopRreq m) e = true ∨ e.nextHop = senderIp)

/-- A reply that is not a hello leaves neither side behind. -/
def RrepKernelOk (senderIp : U32) (m : RrepHeader) (n : Node) : Prop :=
  (∀ e, n.getRoutingEntry senderIp = some e →
    AddAgrees [senderIp] senderIp e.nextHop e ∨ slotOf m.destIp = slotOf senderIp) ∧
  (∀ e, n.getRoutingEntry m.destIp = some e →
    AddAgrees [m.destIp, senderIp] senderIp
      (if fresherForward (incrementHopRrep m) e then senderIp else e.nextHop) e)

/-- An entry made for the address finds no route left behind. -/
def NoneLeft (ip : U32) (n : Node) : Prop :=
  n.getRoutingEntry ip = none → kernelRoute n.log ip = none

/-- The step leaves neither the table nor the kernel's routes behind. -/
def KernelOk (n : Node) (input : Input) : Prop :=
  match input.event with
  | .control senderIp (.rreq m) => senderIp ≠ n.ipAddress → RreqKernelOk senderIp m n
  | .control senderIp (.rrep m) =>
    senderIp ≠ n.ipAddress →
      if m.srcIp = 0 then NoneLeft m.destIp n else RrepKernelOk senderIp m n
  | .outgoing dest => ¬ (dest = n.broadcastIp ∨ dest = n.ipAddress) → NoneLeft dest n
  | _ => True

/-! ### The kernel's routes call by call -/

@[simp] theorem kernelRoute_add (dest gateway : U32) (log : List ApiCall) (ip : U32) :
    kernelRoute (.addUnicastRoutingEntry dest gateway :: log) ip =
      if ip = dest then some gateway else kernelRoute log ip := rfl

@[simp] theorem kernelRoute_delete (dest gateway : U32) (log : List ApiCall) (ip : U32) :
    kernelRoute (.deleteEntry dest gateway :: log) ip =
      if ip = dest ∧ kernelRoute log ip = some gateway then none else kernelRoute log ip := rfl

/-- An entry that agrees has no route once its own is deleted. -/
theorem kernelRoute_delete_own (e : RoutingEntry) (log : List ApiCall) (h : EntryAgrees log e) :
    kernelRoute (.deleteEntry e.destIp e.nextHop :: log) e.destIp = none := by
  rw [kernelRoute_delete]
  cases hs : e.status with
  | routeValid => rw [if_pos ⟨rfl, h.1 hs⟩]
  | routeInvalid => rw [h.2 hs, ite_self]

theorem kernelRoute_add_other (dest gateway : U32) (log : List ApiCall) (d : U32)
    (hd : slotOf d ≠ slotOf dest) :
    kernelRoute (.addUnicastRoutingEntry dest gateway :: log) d = kernelRoute log d := by
  rw [kernelRoute_add, if_neg]
  rintro rfl
  exact hd rfl

/-- The forward-route section may make its call twice, which is as good as once. -/
theorem kernelRoute_add_twice (dest gateway : U32) (log : List ApiCall) (ip : U32) :
    kernelRoute
        (.addUnicastRoutingEntry dest gateway :: .addUnicastRoutingEntry dest gateway :: log)
      ip = kernelRoute (.addUnicastRoutingEntry dest gateway :: log) ip := by
  simp only [kernelRoute_add]
  split <;> rfl

/-! ### Agreement outside one slot -/

/-- The entries outside one slot agree with the kernel. -/
def AgreeBut (k : Fin 256) (n : Node) : Prop :=
  ∀ i e, i ≠ k → n.routes.slots i = some e → EntryAgrees n.log e

theorem agreeBut_of_agree {n : Node} (k : Fin 256) (h : RoutesAgree n) : AgreeBut k n :=
  fun i e _ he => h i e he

theorem agree_of_agreeBut {n : Node} {k : Fin 256} (h : AgreeBut k n)
    (hk : ∀ e, n.routes.slots k = some e → EntryAgrees n.log e) : RoutesAgree n := by
  intro i e he
  by_cases hi : i = k
  · exact hk e (hi ▸ he)
  · exact h i e hi he

/-- The operation works in one slot: it leaves the others as they are and makes no
    call for an address of theirs. -/
def Op.WorksIn (k : Fin 256) (n : Node) (o : Op) : Prop :=
  (∀ i, i ≠ k → (o.apply n).routes.slots i = n.routes.slots i) ∧
    ∀ d, slotOf d ≠ k → kernelRoute (o.calls n ++ n.log) d = kernelRoute n.log d

theorem agreeBut_apply {k : Fin 256} {n : Node} {o : Op} (hwork : o.WorksIn k n)
    (h : AgreeBut k n) : AgreeBut k (o.apply n) := by
  intro i e hi he
  rw [hwork.1 i hi] at he
  have hother : slotOf e.destIp ≠ k := fun hc => hi ((n.routes.keyed i e he).symm.trans hc)
  unfold EntryAgrees
  rw [apply_log, hwork.2 _ hother]
  exact h i e hi he

/-- A write to the entry of an address works in its slot when the calls do. -/
theorem worksIn_update (n : Node) (o : Op) (ip : U32) (f : RoutingEntry → RoutingEntry)
    (calls : RoutingEntry → List ApiCall) (heff : o.effect n = .update ip f)
    (hcalls : o.calls n = n.whenFound ip calls)
    (hother : ∀ e d, slotOf e.destIp = slotOf ip → slotOf d ≠ slotOf ip →
      kernelRoute (calls e ++ n.log) d = kernelRoute n.log d) : o.WorksIn (slotOf ip) n := by
  refine ⟨fun i hi => ?_, fun d hd => ?_⟩
  · rw [apply_slots, heff]
    exact if_neg hi
  · rw [hcalls]
    unfold Node.whenFound
    cases he : n.getRoutingEntry ip with
    | none => rfl
    | some e => exact hother e d (n.routes.keyed _ e he) hd

theorem create_worksIn (env : Env) (ip s : U32) (v : SeqValid) (h c t : U32) (n : Node) :
    (Op.create env ip s v h c t).WorksIn (slotOf ip) n := by
  refine ⟨fun i hi => ?_, fun _ _ => rfl⟩
  rw [apply_slots]
  exact if_neg hi

theorem previousHop_worksIn (env : Env) (s l : U32) (new : Bool) (n : Node) :
    (Op.previousHop env s l new).WorksIn (slotOf s) n :=
  worksIn_update n _ s _ _ rfl rfl fun _ d _ hd => kernelRoute_add_other s s n.log d hd

theorem reverseRoute_worksIn (env : Env) (s : U32) (m : RreqHeader) (new : Bool) (n : Node) :
    (Op.reverseRoute env s m new).WorksIn (slotOf m.srcIp) n :=
  worksIn_update n _ m.srcIp _ _ rfl rfl fun e d he hd =>
    kernelRoute_add_other e.destIp s n.log d (he ▸ hd)

/-- The calls of the forward-route section come to one. -/
theorem forwardRoute_kernel (s : U32) (m : RrepHeader) (twice : Bool) (log : List ApiCall)
    (ip : U32) :
    kernelRoute ((if twice then [.addUnicastRoutingEntry m.destIp s,
      .addUnicastRoutingEntry m.destIp s] else [.addUnicastRoutingEntry m.destIp s]) ++ log) ip =
      kernelRoute (.addUnicastRoutingEntry m.destIp s :: log) ip := by
  cases twice with
  | false => rfl
  | true => exact kernelRoute_add_twice m.destIp s log ip

theorem forwardRoute_worksIn (env : Env) (s : U32) (m : RrepHeader) (new : Bool) (n : Node) :
    (Op.forwardRoute env s m new).WorksIn (slotOf m.destIp) n :=
  worksIn_update n _ m.destIp _ _ rfl rfl fun e d _ hd =>
    (forwardRoute_kernel s m (new || fresherForward m e) n.log d).trans
      (kernelRoute_add_other m.destIp s n.log d hd)

/-! ### The sections that install no route -/

/-- The write leaves status and next hop and there is no call. -/
theorem agrees_of_silent (n : Node) (o : Op) (ip : U32) (f : RoutingEntry → RoutingEntry)
    (heff : o.effect n = .update ip f) (hcalls : o.calls n = [])
    (hf : ∀ e, (f e).status = e.status ∧ (f e).nextHop = e.nextHop)
    (hn : RoutesAgree n) : RoutesAgree (o.apply n) := by
  intro i e' he'
  rw [apply_slots, heff] at he'
  rw [apply_log, hcalls, List.nil_append]
  simp only [Effect.slot] at he'
  split at he'
  · rcases Option.map_eq_some_iff.mp he' with ⟨e, he, rfl⟩
    unfold EntryAgrees
    rw [effect_keeps n o ip f heff, (hf e).1, (hf e).2]
    exact hn i e he
  · exact hn i e' he'

/-- Deleting an entry's route works in the entry's slot. -/
theorem delete_worksIn (n : Node) (o : Op) (ip : U32) (f : RoutingEntry → RoutingEntry)
    (heff : o.effect n = .update ip f)
    (hcalls : o.calls n = n.whenFound ip fun e => [.deleteEntry e.destIp e.nextHop]) :
    o.WorksIn (slotOf ip) n := by
  refine worksIn_update n o ip f _ heff hcalls (fun e d he hd => ?_)
  rw [List.singleton_append, kernelRoute_delete, if_neg]
  rintro ⟨rfl, -⟩
  exact hd he

/-- The entry's route is deleted and the entry made invalid. -/
theorem agrees_of_delete (n : Node) (o : Op) (ip : U32) (f : RoutingEntry → RoutingEntry)
    (heff : o.effect n = .update ip f)
    (hcalls : o.calls n = n.whenFound ip fun e => [.deleteEntry e.destIp e.nextHop])
    (hf : ∀ e, (f e).status = .routeInvalid) (hn : RoutesAgree n) : RoutesAgree (o.apply n) := by
  have hwork := delete_worksIn n o ip f heff hcalls
  refine agree_of_agreeBut (agreeBut_apply hwork (agreeBut_of_agree _ hn)) (fun e' he' => ?_)
  rw [apply_slots, heff] at he'
  simp only [Effect.slot, if_true] at he'
  rcases Option.map_eq_some_iff.mp he' with ⟨e, he, rfl⟩
  unfold EntryAgrees
  rw [apply_log, hcalls, Node.whenFound, Node.getRoutingEntry_eq, he, List.singleton_append,
    effect_keeps n o ip f heff, kernelRoute_delete_own e n.log (hn _ e he), hf e]
  exact ⟨(fun hs => by cases hs), fun _ => rfl⟩

theorem agrees_of_keep (n : Node) (o : Op) (heff : o.effect n = .keep)
    (hcalls : kernelRoute (o.calls n ++ n.log) = kernelRoute n.log) (hn : RoutesAgree n) :
    RoutesAgree (o.apply n) := by
  intro i e he
  rw [apply_slots, heff] at he
  unfold EntryAgrees
  rw [apply_log, hcalls]
  exact hn i e he

theorem removeEntry_agrees (ip : U32) (n : Node) (hn : RoutesAgree n) :
    RoutesAgree ((Op.removeEntry ip).apply n) := by
  intro i e he
  rw [apply_slots] at he
  simp only [Op.effect, Effect.slot] at he
  rw [apply_log, Op.calls, List.nil_append]
  split at he
  · cases he
  · exact hn i e he

theorem hello_agrees (env : Env) (m : RrepHeader) (new : Bool) (n : Node) (hn : RoutesAgree n) :
    RoutesAgree ((Op.hello env m new).apply n) := by
  refine agrees_of_silent n _ _ _ rfl rfl (fun e => ?_) hn
  by_cases hm : takesHello m new e
  · rcases hello_accepted env new e m hm with ⟨t, ht⟩
    rw [ht]
    exact ⟨rfl, rfl⟩
  · rw [hello_refused env new e m hm]
    exact ⟨rfl, rfl⟩

/-- The operation neither makes an entry nor adds a route. -/
def Op.Quiet : Op → Prop
  | create _ _ _ _ _ _ _ | previousHop _ _ _ _ | reverseRoute _ _ _ _
  | forwardRoute _ _ _ _ => False
  | _ => True

/-- Quiet operations keep the agreement. -/
theorem quiet_agrees (o : Op) (hquiet : o.Quiet) (n : Node) (hn : RoutesAgree n) :
    RoutesAgree (o.apply n) := by
  cases o with
  | create | previousHop | reverseRoute | forwardRoute => exact absurd hquiet id
  | removeEntry ip => exact removeEntry_agrees ip n hn
  | breakRoute | linkBreak | outgoingBreak | expireRoute =>
      exact agrees_of_delete n _ _ _ rfl rfl (fun _ => rfl) hn
  | hello env m new => exact hello_agrees env m new n hn
  | activate ip =>
      refine agrees_of_silent n _ _ _ rfl rfl (fun e => ?_) hn
      rw [activate_eq]
      exact ⟨rfl, rfl⟩
  | write ip w =>
      refine agrees_of_silent n _ _ _ rfl rfl (fun e => ?_) hn
      cases w <;> exact ⟨rfl, rfl⟩
  | searchFound | startSearch | searchFailed =>
      exact agrees_of_silent n _ _ _ rfl rfl (fun _ => ⟨rfl, rfl⟩) hn
  | beginWait | moveWaiter | moveHello | incrementSequenceNum | writeSequenceNum | sendRreq
  | sendUnicast | sendBroadcast => exact agrees_of_keep n _ rfl rfl hn

/-- The handlers of events that install nothing are quiet. -/
theorem quiet_of_guard (event : Event) (hevent : event.installs = false) (o : Op) (n : Node)
    (hguard : o.Guard event n) : o.Quiet := by
  cases o with
  | create => exact absurd (hevent.symm.trans hguard.1) nofun
  | previousHop =>
      rcases hguard.1 with ⟨m, rfl, -⟩ | ⟨m, rfl, -⟩
      · exact absurd hevent nofun
      · exact absurd hevent nofun
  | reverseRoute | forwardRoute =>
      rcases hguard.1 with ⟨m, rfl, -⟩
      exact absurd hevent nofun
  | hello | searchFound | activate | breakRoute | linkBreak | outgoingBreak | expireRoute
  | removeEntry | write | startSearch | beginWait | moveWaiter | moveHello | incrementSequenceNum
  | writeSequenceNum | sendRreq | searchFailed | sendUnicast | sendBroadcast => trivial

/-- So is what follows a route section. -/
theorem quiet_of_follows (o : Op) (h : o.FollowsRoute) : o.Quiet := by
  cases o with
  | activate | write | writeSequenceNum | sendUnicast | sendBroadcast => trivial
  | _ => exact absurd h id

/-- A handler whose operations are quiet keeps the agreement. -/
theorem handler_agrees_of_quiet (h : Handler) (n : Node)
    (hquiet : h.Meets Op.apply (fun o _ => o.Quiet) n) (hn : RoutesAgree n) :
    RoutesAgree (h.exec Op.apply n).1 :=
  Prog.exec_invariant Op.apply (fun o _ => o.Quiet) RoutesAgree
    (fun o n hn hq => quiet_agrees o hq n hn) h n hn hquiet

/-- So does one that could be the handler of an event that installs nothing. -/
theorem handler_agrees_of_guard (event : Event) (hevent : event.installs = false) (h : Handler)
    (n : Node) (hguard : h.Guarded event n) (hn : RoutesAgree n) :
    RoutesAgree (h.exec Op.apply n).1 :=
  handler_agrees_of_quiet h n
    (Prog.Meets.imp (fun o n hg => quiet_of_guard event hevent o n hg) h n hguard) hn

/-! ### The sections that add a route -/

/-- A section that makes the entry valid settles its slot when the call and the
    next hop go together, whatever the slot was like before. -/
theorem settles_of_call (n : Node) (o : Op) (ip : U32) (f : RoutingEntry → RoutingEntry)
    (heff : o.effect n = .update ip f) (hwork : o.WorksIn (slotOf ip) n)
    (h : AgreeBut (slotOf ip) n)
    (hf : ∀ e, n.getRoutingEntry ip = some e →
      (f e).status = .routeValid ∧
        kernelRoute (o.calls n ++ n.log) e.destIp = some (f e).nextHop) :
    RoutesAgree (o.apply n) := by
  refine agree_of_agreeBut (agreeBut_apply hwork h) (fun e' he' => ?_)
  rcases slot_of_update n o ip f heff e' he' with ⟨e, he, rfl⟩
  unfold EntryAgrees
  rw [apply_log, effect_keeps n o ip f heff, (hf e he).1, (hf e he).2]
  exact ⟨fun _ => rfl, nofun⟩

theorem previousHop_settles (env : Env) (s l : U32) (new : Bool) (n : Node)
    (h : AgreeBut (slotOf s) n)
    (hroute : ∀ e, n.getRoutingEntry s = some e →
      kernelRoute (.addUnicastRoutingEntry s s :: n.log) e.destIp = some e.nextHop) :
    RoutesAgree ((Op.previousHop env s l new).apply n) := by
  refine settles_of_call n _ s _ rfl (previousHop_worksIn env s l new n) h (fun e he => ?_)
  rcases previousHop_eq env new e l with ⟨t, ht⟩
  rw [ht, Op.calls, Node.whenFound, he]
  exact ⟨rfl, hroute e he⟩

theorem reverseRoute_settles (env : Env) (s : U32) (m : RreqHeader) (new : Bool) (n : Node)
    (h : AgreeBut (slotOf m.srcIp) n)
    (hroute : ∀ e, n.getRoutingEntry m.srcIp = some e →
      new = true ∨ fresherReverse m e = true ∨ e.nextHop = s) :
    RoutesAgree ((Op.reverseRoute env s m new).apply n) := by
  refine settles_of_call n _ m.srcIp _ rfl (reverseRoute_worksIn env s m new n) h (fun e he => ?_)
  rw [Op.calls, Node.whenFound, he]
  simp only [List.singleton_append, kernelRoute_add, if_true]
  by_cases hm : new = true ∨ fresherReverse m e = true
  · rcases reverseRoute_accepted env s new e m hm with ⟨t, ht⟩
    rw [ht]
    exact ⟨rfl, rfl⟩
  · rcases reverseRoute_refused env s new e m hm with ⟨t, ht⟩
    rw [ht]
    exact ⟨rfl, congrArg some ((or_assoc.mpr (hroute e he)).resolve_left hm).symm⟩

theorem forwardRoute_settles (env : Env) (s : U32) (m : RrepHeader) (new : Bool) (n : Node)
    (h : AgreeBut (slotOf m.destIp) n)
    (hroute : ∀ e, n.getRoutingEntry m.destIp = some e →
      kernelRoute (.addUnicastRoutingEntry m.destIp s :: n.log) e.destIp =
        some (if new = true ∨ fresherForward m e = true then s else e.nextHop)) :
    RoutesAgree ((Op.forwardRoute env s m new).apply n) := by
  refine settles_of_call n _ m.destIp _ rfl (forwardRoute_worksIn env s m new n) h (fun e he => ?_)
  -- A second installation of the same route changes nothing in the kernel.
  have hcall : kernelRoute ((Op.forwardRoute env s m new).calls n ++ n.log) e.destIp =
      kernelRoute (.addUnicastRoutingEntry m.destIp s :: n.log) e.destIp := by
    rw [Op.calls, Node.whenFound, he]
    exact forwardRoute_kernel s m (new || fresherForward m e) n.log e.destIp
  rw [hcall, hroute e he]
  by_cases hm : new = true ∨ fresherForward m e = true
  · rcases forwardRoute_accepted env s new e m hm with ⟨t, ht⟩
    rw [ht, if_pos hm]
    exact ⟨rfl, rfl⟩
  · rcases forwardRoute_refused env s new e m hm with ⟨t, ht⟩
    rw [ht, if_neg hm]
    exact ⟨rfl, rfl⟩

/-- What the calls for some addresses over the sender make of the entry's route. -/
theorem kernelRoute_of_addAgrees (ips : List U32) (s hop : U32) (log : List ApiCall)
    (e : RoutingEntry) (h : EntryAgrees log e) (hadd : AddAgrees ips s hop e) :
    kernelRoute (ips.map (fun ip => .addUnicastRoutingEntry ip s) ++ log) e.destIp = some hop := by
  induction ips with
  | nil =>
      rw [AddAgrees, List.contains_nil, if_neg Bool.false_ne_true] at hadd
      rw [hadd.2]
      exact h.1 hadd.1
  | cons ip rest ih =>
      simp only [List.map_cons, List.cons_append, kernelRoute_add]
      unfold AddAgrees at hadd ih
      -- The last call made is the first in the record, and it settles its address.
      by_cases hip : e.destIp = ip
      · rw [if_pos (List.contains_iff_mem.mpr (hip ▸ List.mem_cons_self))] at hadd
        rw [if_pos hip, hadd]
      · rw [if_neg hip]
        simp only [List.contains_iff_mem, List.mem_cons, hip, false_or] at hadd ih
        exact ih hadd

theorem create_agrees (env : Env) (ip s : U32) (v : SeqValid) (h c t : U32) (n : Node)
    (hleft : NoneLeft ip n) (hn : RoutesAgree n) :
    RoutesAgree ((Op.create env ip s v h c t).apply n) := by
  intro i e he
  rw [apply_slots] at he
  simp only [Op.effect, Effect.slot, freshEntry] at he
  rw [apply_log, Op.calls, List.nil_append]
  by_cases hi : i = slotOf ip
  · rw [if_pos hi] at he
    cases hold : n.routes.slots i with
    | some old =>
        rw [hold, Option.getD_some, Option.some.injEq] at he
        exact he ▸ hn i old hold
    | none =>
        -- The new entry is invalid, so the kernel must have no route left for it.
        rw [hold, Option.getD_none, Option.some.injEq] at he
        rw [← he]
        exact ⟨(fun hs => by cases hs),
          fun _ => hleft (by rw [Node.getRoutingEntry_eq, ← hi, hold])⟩
  · rw [if_neg hi] at he
    exact hn i e he

/-! ### The previous hop -/

section PreviousHop

variable (env : Env) (s listed : U32) (n : Node)

theorem afterPreviousHop_agreeBut (hn : RoutesAgree n) :
    AgreeBut (slotOf s) (afterPreviousHop env s listed n) :=
  agreeBut_apply (previousHop_worksIn env s listed _ _)
    (agreeBut_apply (create_worksIn env s 0 .seqInvalid s 0 _ n) (agreeBut_of_agree _ hn))

/-- The previous hop is settled when its entry is the sender's with the sender as
    next hop, or a valid one of another address. -/
theorem afterPreviousHop_agrees (hn : RoutesAgree n)
    (hadd : ∀ e, n.getRoutingEntry s = some e → AddAgrees [s] s e.nextHop e) :
    RoutesAgree (afterPreviousHop env s listed n) := by
  refine previousHop_settles env s listed _ _ (agreeBut_apply
    (create_worksIn env s 0 .seqInvalid s 0 _ n) (agreeBut_of_agree _ hn)) (fun e he => ?_)
  rw [create_getRoutingEntry, Option.some.injEq] at he
  rw [apply_log, ← he]
  unfold previousHopEntry
  cases hold : n.getRoutingEntry s with
  | none => exact if_pos rfl
  | some old =>
      exact kernelRoute_of_addAgrees [s] s old.nextHop n.log old (hn _ old hold) (hadd old hold)

/-- What the update tests and the duplicate check read of an entry is the same. -/
structure SameRoute (e e' : RoutingEntry) : Prop where
  destIp : e.destIp = e'.destIp
  destSeq : e.destSeq = e'.destSeq
  seqValid : e.seqValid = e'.seqValid
  nextHop : e.nextHop = e'.nextHop
  hopCount : e.hopCount = e'.hopCount
  rreqId : e.rreqId = e'.rreqId

/-- What a later section of the handler finds: an entry that was there before, or
    the one just made for the sender in the slot looked at. -/
theorem afterPreviousHop_found (d : U32) (e : RoutingEntry)
    (he : (afterPreviousHop env s listed n).getRoutingEntry d = some e) :
    (∃ e₀, n.getRoutingEntry d = some e₀ ∧ SameRoute e e₀) ∨
      (slotOf d = slotOf s ∧ n.getRoutingEntry s = none ∧
        e.destIp = s ∧ e.nextHop = s ∧ e.seqValid = .seqInvalid) := by
  rw [afterPreviousHop_getRoutingEntry] at he
  by_cases hd : slotOf d = slotOf s
  · rw [if_pos hd, Option.some.injEq] at he
    rw [Node.getRoutingEntry_eq n d, hd, ← Node.getRoutingEntry_eq, ← he]
    rcases previousHop_eq env (n.isNew s) (previousHopEntry env s n) listed with ⟨t, ht⟩
    rw [ht]
    unfold previousHopEntry
    cases n.getRoutingEntry s with
    -- `create_or_get_routing_entry` has made the entry, without a valid number.
    | none => exact Or.inr ⟨rfl, rfl, rfl, rfl, rfl⟩
    | some e₀ => exact Or.inl ⟨e₀, rfl, ⟨rfl, rfl, rfl, rfl, rfl, rfl⟩⟩
  · rw [if_neg hd] at he
    exact Or.inl ⟨e, he, ⟨rfl, rfl, rfl, rfl, rfl, rfl⟩⟩

/-- An entry that was there is found again. -/
theorem afterPreviousHop_kept (d : U32) (e₀ : RoutingEntry) (he : n.getRoutingEntry d = some e₀) :
    ∃ e, (afterPreviousHop env s listed n).getRoutingEntry d = some e ∧ SameRoute e e₀ := by
  rw [afterPreviousHop_getRoutingEntry]
  by_cases hd : slotOf d = slotOf s
  · rw [if_pos hd]
    rw [Node.getRoutingEntry_eq, hd, ← Node.getRoutingEntry_eq] at he
    rcases previousHop_eq env (n.isNew s) (previousHopEntry env s n) listed with ⟨t, ht⟩
    rw [ht]
    unfold previousHopEntry
    rw [he]
    exact ⟨_, rfl, ⟨rfl, rfl, rfl, rfl, rfl, rfl⟩⟩
  · rw [if_neg hd]
    exact ⟨e₀, he, ⟨rfl, rfl, rfl, rfl, rfl, rfl⟩⟩

end PreviousHop

theorem SameRoute.isDuplicate_eq {e e' : RoutingEntry} (h : SameRoute e e') (ip : U32)
    (m : RreqHeader) : isDuplicate ip m e = isDuplicate ip m e' := by
  unfold isDuplicate
  rw [h.rreqId, h.hopCount]

theorem SameRoute.fresherReverse_eq {e e' : RoutingEntry} (h : SameRoute e e') (m : RreqHeader) :
    fresherReverse m e = fresherReverse m e' := by
  unfold fresherReverse
  rw [h.destSeq, h.seqValid, h.hopCount]

/-- The status the test of the forward route reads does not matter: at an equal
    number the test succeeds anyway. -/
theorem fresherForward_eq (m : RrepHeader) (e : RoutingEntry) :
    fresherForward m e =
      (e.seqValid = .seqInvalid || seqCompare m.destSeq e.destSeq ≥ 0 : Bool) := by
  by_cases heq : m.destSeq = e.destSeq
  · have hcmp : seqCompare m.destSeq e.destSeq ≥ 0 := by
      rw [heq, seqCompare, BitVec.sub_self]
      decide
    unfold fresherForward
    rw [decide_eq_true hcmp, Bool.or_true, Bool.true_or, Bool.true_or]
  · unfold fresherForward
    rw [decide_eq_false heq, Bool.false_and, Bool.false_and, Bool.or_false, Bool.or_false]

theorem SameRoute.fresherForward_eq {e e' : RoutingEntry} (h : SameRoute e e') (m : RrepHeader) :
    fresherForward m e = fresherForward m e' := by
  rw [OpenManet.fresherForward_eq, OpenManet.fresherForward_eq, h.destSeq, h.seqValid]

/-! ### Route requests -/

/-- The entry found after `create_or_get_routing_entry` is new or was there. -/
theorem create_found (env : Env) (ip s : U32) (v : SeqValid) (h c t : U32) (n : Node)
    (e : RoutingEntry)
    (he : ((Op.create env ip s v h c t).apply n).getRoutingEntry ip = some e) :
    (n.isNew ip = true ∧ e = freshEntry env ip s v h c t) ∨
      (n.isNew ip = false ∧ n.getRoutingEntry ip = some e) := by
  rw [Node.getRoutingEntry_eq, apply_slots] at he
  simp only [Op.effect, Effect.slot, freshEntry, if_true, Option.some.injEq] at he
  unfold Node.isNew
  rw [Node.getRoutingEntry_eq]
  cases hold : n.routes.slots (slotOf ip) with
  | none =>
      rw [hold, Option.getD_none] at he
      exact Or.inl ⟨rfl, he.symm⟩
  | some old =>
      rw [hold, Option.getD_some] at he
      exact Or.inr ⟨rfl, congrArg some he⟩

theorem recvNewRreq_agrees (env : Env) (s : U32) (m : RreqHeader) (n : Node)
    (h : AgreeBut (slotOf m.srcIp) n)
    (hroute : ∀ e, n.getRoutingEntry m.srcIp = some e →
      fresherReverse m e = true ∨ e.nextHop = s) :
    RoutesAgree ((recvNewRreq env s m).exec Op.apply n).1 := by
  let n' := (Op.create env m.srcIp m.srcSeq .seqValid s (m.hopCount.setWidth 32) 0).apply n
  let n'' := (Op.reverseRoute env s m (n.isNew m.srcIp)).apply n'
  have hexec : (recvNewRreq env s m).exec Op.apply n =
      (afterReverseRoute env s m n'').exec Op.apply n'' := rfl
  rw [hexec]
  refine handler_agrees_of_quiet _ _ (Prog.Meets.imp (fun o _ => quiet_of_follows o) _ _
    (afterReverseRoute_follows env s m n'' n'')) ?_
  -- The section itself makes up for whatever the one before it has left behind.
  refine reverseRoute_settles env s m _ n' (agreeBut_apply (create_worksIn _ _ _ _ _ _ _ n) h)
    (fun e he => ?_)
  rcases create_found _ _ _ _ _ _ _ n e he with ⟨hnew, -⟩ | ⟨-, hold⟩
  · exact Or.inl hnew
  · exact Or.inr (hroute e hold)

/-- A step that receives a request. -/
theorem recvRreq_agrees (env : Env) (s : U32) (m : RreqHeader) (n : Node) (hn : RoutesAgree n)
    (hok : RreqKernelOk s m n) : RoutesAgree ((recvRreq env s m).exec Op.apply n).1 := by
  let n' := afterPreviousHop env s m.srcIp n
  have hip : n'.ipAddress = n.ipAddress := afterPreviousHop_ipAddress env s m.srcIp n
  have hexec : (recvRreq env s m).exec Op.apply n =
      Prog.exec Op.apply (if m.srcIp = n'.ipAddress then acceptPacket
        else if (n'.getRoutingEntry m.srcIp).any (isDuplicate n'.ipAddress m) then acceptPacket
        else recvNewRreq env s (incrementHopRreq m)) n' := rfl
  -- Where the handler stops after the previous hop, that section has to have settled it.
  have hstop : ¬ ReachesReverseRoute m n' → RoutesAgree n' := by
    intro hnot
    refine afterPreviousHop_agrees env s m.srcIp n hn (fun e he => ?_)
    refine (hok.1 e he).resolve_right (fun hlater => hnot ⟨hip ▸ hlater.2.1, ?_⟩)
    rw [Node.getRoutingEntry_eq, ← hlater.1, ← Node.getRoutingEntry_eq] at he
    rcases afterPreviousHop_kept env s m.srcIp n m.srcIp e he with ⟨e', he', hsame⟩
    have hseen := hlater.2.2
    rw [he, Option.any_some] at hseen
    rw [he', Option.any_some, hip, hsame.isDuplicate_eq, hseen]
  rw [hexec]
  by_cases hown : m.srcIp = n'.ipAddress
  · rw [if_pos hown]
    exact hstop (fun hreach => hreach.1 hown)
  · rw [if_neg hown]
    by_cases hseen : (n'.getRoutingEntry m.srcIp).any (isDuplicate n'.ipAddress m) = true
    · rw [if_pos hseen]
      exact hstop (fun hreach => absurd (hreach.2.symm.trans hseen) nofun)
    · rw [if_neg hseen]
      refine recvNewRreq_agrees env s _ n' ?_ (fun e he => ?_)
      · by_cases hslot : slotOf m.srcIp = slotOf s
        · have hbut := afterPreviousHop_agreeBut env s m.srcIp n hn
          rw [← hslot] at hbut
          exact hbut
        · exact agreeBut_of_agree _ (afterPreviousHop_agrees env s m.srcIp n hn
            (fun e he => (hok.1 e he).resolve_right (fun hlater => hslot hlater.1)))
      · rcases afterPreviousHop_found env s m.srcIp n m.srcIp e he with
          ⟨e₀, he₀, hsame⟩ | ⟨-, -, -, hhop, -⟩
        · have hreach : ReachesReverseRoute m n := by
            refine ⟨hip ▸ hown, Bool.eq_false_of_not_eq_true (fun hdup => hseen ?_)⟩
            rw [he₀, Option.any_some] at hdup
            rw [show n'.getRoutingEntry m.srcIp = some e from he, Option.any_some, hip,
              hsame.isDuplicate_eq, hdup]
          rw [hsame.fresherReverse_eq, hsame.nextHop]
          exact hok.2 hreach e₀ he₀
        · exact Or.inr hhop

/-! ### Route replies -/

theorem searchFound_getRoutingEntry (ip d : U32) (n : Node) :
    ((Op.searchFound ip).apply n).getRoutingEntry d =
      if slotOf d = slotOf ip then (n.getRoutingEntry d).map RoutingEntry.searchFound
      else n.getRoutingEntry d := by
  rw [Node.getRoutingEntry_eq, apply_slots]
  rfl

/-- Publishing the outcome of a search leaves the condition as it is. -/
theorem RrepKernelOk.searchFound {s : U32} {m : RrepHeader} {n : Node} (ip : U32)
    (h : RrepKernelOk s m n) : RrepKernelOk s m ((Op.searchFound ip).apply n) := by
  -- Publishing changes none of the fields the condition reads.
  have hback : ∀ d e', ((Op.searchFound ip).apply n).getRoutingEntry d = some e' →
      ∃ e, n.getRoutingEntry d = some e ∧ (e' = e ∨ e' = e.searchFound) := by
    intro d e' he'
    rw [searchFound_getRoutingEntry] at he'
    split at he'
    · rcases Option.map_eq_some_iff.mp he' with ⟨e, he, rfl⟩
      exact ⟨e, he, Or.inr rfl⟩
    · exact ⟨e', he', Or.inl rfl⟩
  constructor
  · intro e' he'
    rcases hback s e' he' with ⟨e, he, rfl | rfl⟩
    · exact h.1 e' he
    · exact h.1 e he
  · intro e' he'
    rcases hback m.destIp e' he' with ⟨e, he, rfl | rfl⟩
    · exact h.2 e' he
    · exact h.2 e he

theorem recvHello_agrees (env : Env) (s : U32) (m : RrepHeader) (n : Node) (hn : RoutesAgree n)
    (hleft : NoneLeft m.destIp n) : RoutesAgree ((recvHello env s m).exec Op.apply n).1 :=
  hello_agrees env m (n.isNew m.destIp) _
    (create_agrees env m.destIp m.destSeq .seqValid s _ m.lifetime n hleft hn)

theorem installForwardRoute_agrees (env : Env) (s : U32) (m : RrepHeader) (n : Node)
    (h : AgreeBut (slotOf m.destIp) n)
    (hroute : ∀ e, n.getRoutingEntry m.destIp = some e →
      kernelRoute (.addUnicastRoutingEntry m.destIp s :: n.log) e.destIp =
        some (if fresherForward m e then s else e.nextHop)) :
    RoutesAgree ((installForwardRoute env s m).exec Op.apply n).1 := by
  let n' := (Op.create env m.destIp m.destSeq .seqValid s (m.hopCount.setWidth 32)
    m.lifetime).apply n
  let n'' := (Op.forwardRoute env s m (n.isNew m.destIp)).apply n'
  have hexec : (installForwardRoute env s m).exec Op.apply n =
      (afterForwardRoute m).exec Op.apply n'' := rfl
  rw [hexec]
  -- What follows the installation changes no route.
  refine handler_agrees_of_quiet _ _ (Prog.Meets.imp (fun o _ => quiet_of_follows o) _ _
    (afterForwardRoute_follows m n'')) ?_
  refine forwardRoute_settles env s m _ n' (agreeBut_apply (create_worksIn _ _ _ _ _ _ _ n) h)
    (fun e he => ?_)
  rw [apply_log, Op.calls, List.nil_append]
  rcases create_found _ _ _ _ _ _ _ n e he with ⟨hnew, rfl⟩ | ⟨hold, hfound⟩
  · rw [if_pos (Or.inl hnew)]
    exact if_pos rfl
  · rw [hroute e hfound, hold]
    simp only [Bool.false_eq_true, false_or]

/-- A step that receives a reply which is not a hello, after its first section. -/
theorem recvRoute_agrees (env : Env) (s : U32) (m : RrepHeader) (n : Node) (hn : RoutesAgree n)
    (hok : RrepKernelOk s m n) :
    RoutesAgree ((previousHopSection env s m.destIp
      (installForwardRoute env s (incrementHopRrep m))).exec Op.apply n).1 := by
  have hexec : (previousHopSection env s m.destIp
      (installForwardRoute env s (incrementHopRrep m))).exec Op.apply n =
      (installForwardRoute env s (incrementHopRrep m)).exec Op.apply
        (afterPreviousHop env s m.destIp n) := rfl
  rw [hexec]
  refine installForwardRoute_agrees env s _ _ ?_ (fun e he => ?_)
  · -- One slot may serve both sections; then the second settles what the first left.
    by_cases hslot : slotOf m.destIp = slotOf s
    · have hbut := afterPreviousHop_agreeBut env s m.destIp n hn
      rw [← hslot] at hbut
      exact hbut
    · exact agreeBut_of_agree _ (afterPreviousHop_agrees env s m.destIp n hn
        (fun e he => (hok.1 e he).resolve_right hslot))
  · rw [afterPreviousHop_log]
    rcases afterPreviousHop_found env s m.destIp n m.destIp e he with
      ⟨e₀, he₀, hsame⟩ | ⟨-, -, hdest, hhop, hseq⟩
    · rw [hsame.fresherForward_eq, hsame.nextHop, hsame.destIp]
      exact kernelRoute_of_addAgrees [m.destIp, s] s _ n.log e₀ (hn _ e₀ he₀) (hok.2 e₀ he₀)
    · rw [hdest, hhop, ite_self]
      simp only [kernelRoute_add, if_true, ite_self]

/-- A step that receives a reply. -/
theorem recvRrep_agrees (env : Env) (s : U32) (m : RrepHeader) (n : Node) (hn : RoutesAgree n)
    (hok : if m.srcIp = 0 then NoneLeft m.destIp n else RrepKernelOk s m n) :
    RoutesAgree ((recvRrep env s m).exec Op.apply n).1 := by
  -- The sections that follow are the same whether or not a search was over.
  have hrest : ∀ n', RoutesAgree n' →
      (if m.srcIp = 0 then NoneLeft m.destIp n' else RrepKernelOk s m n') →
      RoutesAgree ((if m.srcIp = 0 then recvHello env s (incrementHopRrep m)
        else previousHopSection env s m.destIp
          (installForwardRoute env s (incrementHopRrep m))).exec Op.apply n').1 := by
    intro n' hn' hok'
    by_cases hhello : m.srcIp = 0
    · rw [if_pos hhello] at hok' ⊢
      exact recvHello_agrees env s _ n' hn' hok'
    · rw [if_neg hhello] at hok' ⊢
      exact recvRoute_agrees env s m n' hn' hok'
  -- The originator publishes the outcome first, which no route depends on.
  by_cases hpub : n.ipAddress = m.srcIp ∧ (n.getRoutingEntry m.destIp).isSome = true
  · have hexec : (recvRrep env s m).exec Op.apply n = Prog.exec Op.apply
        (if m.srcIp = 0 then recvHello env s (incrementHopRrep m)
          else previousHopSection env s m.destIp
            (installForwardRoute env s (incrementHopRrep m)))
            ((Op.searchFound m.destIp).apply n) := by
      simp only [recvRrep, publishFound, locked, Prog.exec, if_pos hpub]
    rw [hexec]
    refine hrest _ (quiet_agrees (.searchFound m.destIp) trivial n hn) ?_
    by_cases hhello : m.srcIp = 0
    · rw [if_pos hhello] at hok ⊢
      intro hnone
      rcases Option.isSome_iff_exists.mp hpub.2 with ⟨e, he⟩
      rw [searchFound_getRoutingEntry, if_pos rfl, he] at hnone
      exact absurd hnone (Option.some_ne_none _)
    · rw [if_neg hhello] at hok ⊢
      exact hok.searchFound m.destIp
  · have hexec : (recvRrep env s m).exec Op.apply n = Prog.exec Op.apply
        (if m.srcIp = 0 then recvHello env s (incrementHopRrep m)
          else previousHopSection env s m.destIp
            (installForwardRoute env s (incrementHopRrep m))) n := by
      simp only [recvRrep, publishFound, Prog.exec, if_neg hpub]
    rw [hexec]
    exact hrest n hn hok

/-! ### Outgoing packets -/

theorem startOrJoin_quiet (dest : U32) (new : Bool) (n n' : Node) :
    (startOrJoin dest new n).Meets Op.apply (fun o _ => o.Quiet) n' := by
  unfold startOrJoin
  cases n.getRoutingEntry dest with
  | none => trivial
  | some e =>
      simp only []
      split
      · trivial
      · split
        · exact ⟨trivial, trivial⟩
        · cases new with
          | true => exact ⟨trivial, trivial, trivial⟩
          | false => exact ⟨trivial, trivial, trivial, trivial⟩

theorem sendRreq_agrees (env : Env) (dest : U32) (n : Node) (hn : RoutesAgree n)
    (hleft : NoneLeft dest n) : RoutesAgree ((sendRreq env dest).exec Op.apply n).1 := by
  refine handler_agrees_of_quiet (startOrJoin dest (n.isNew dest) _) _
    (startOrJoin_quiet dest _ _ _)
    (create_agrees env dest 0 .seqInvalid 0 0 (toU32 myRouteTimeout) n hleft hn)

theorem outgoingMessage_agrees (env : Env) (dest : U32) (n : Node) (hn : RoutesAgree n)
    (hok : ¬ (dest = n.broadcastIp ∨ dest = n.ipAddress) → NoneLeft dest n) :
    RoutesAgree ((outgoingMessage env dest).exec Op.apply n).1 := by
  simp only [outgoingMessage, Prog.exec]
  by_cases hlocal : dest = n.broadcastIp ∨ dest = n.ipAddress
  · rw [if_pos hlocal]
    exact hn
  · rw [if_neg hlocal]
    cases he : n.getRoutingEntry dest with
    | none => exact sendRreq_agrees env dest n hn (hok hlocal)
    | some e =>
        simp only []
        split
        · exact quiet_agrees (.write dest _) trivial n hn
        · split
          · exact hn
          · split
            · have hbreak : RoutesAgree ((Op.outgoingBreak env dest).apply n) :=
                agrees_of_delete n _ _ _ rfl rfl (fun _ => rfl) hn
              refine sendRreq_agrees env dest _ hbreak (fun hnone => ?_)
              -- The broken entry is still there.
              rw [Node.getRoutingEntry_eq, apply_slots] at hnone
              rw [Node.getRoutingEntry_eq] at he
              simp only [Op.effect, Effect.slot, if_true, he] at hnone
              exact absurd hnone (Option.some_ne_none _)
            · exact sendRreq_agrees env dest n hn (hok hlocal)

/-! ### Steps and runs -/

/-- A step that leaves neither side behind keeps the agreement. -/
theorem step_routes_agree (n : Node) (input : Input) (hn : RoutesAgree n)
    (hok : KernelOk n input) : RoutesAgree (step n input) := by
  -- Only a request, a reply and an outgoing packet can make a new route or entry.
  have hquiet : input.event.installs = false → RoutesAgree (step n input) := fun hevent =>
    handler_agrees_of_guard input.event hevent input.handler n (handler_guard n input) hn
  cases input with
  | mk env event =>
      cases event with
      | control s message =>
          cases message with
          | rreq m =>
              rw [step_rreq]
              -- What a node hears of itself is dropped at once.
              by_cases hself : s = n.ipAddress
              · rw [if_pos hself]
                exact hn
              · rw [if_neg hself]
                exact recvRreq_agrees env s m n hn (hok hself)
          | rrep m =>
              rw [step_rrep]
              by_cases hself : s = n.ipAddress
              · rw [if_pos hself]
                exact hn
              · rw [if_neg hself]
                exact recvRrep_agrees env s m n hn (hok hself)
          | rerr m destPairs => exact hquiet rfl
      | outgoing dest => exact outgoingMessage_agrees env dest n hn hok
      | data | forwarded | search | wait | expire | rreqIdExpire | hello => exact hquiet rfl

/-- In a run whose steps leave neither side behind, the table and the kernel agree
    in every state. -/
theorem routes_agree (ip bcast : U32) (hello : Nat → Byte) (inputs : List Input)
    (hok : AllSteps step KernelOk (Node.boot ip bcast hello) inputs) :
    RoutesAgree (run step (Node.boot ip bcast hello) inputs) :=
  run_invariant step KernelOk RoutesAgree step_routes_agree _ inputs
    (fun i e he => absurd he (Node.boot_slots_ne ip bcast hello i e)) hok

/-- The reply to the node's search for 3.0.0.0 arrives over 2.0.0.0 and the route
    expires. -/
def replyThenExpiry : List Input :=
  [receive 0x02000000 (replyAfter 1 0x03000000 5 0x01000000),
    { env := .clear, event := .expire 0x03000000 }]

theorem routes_agree_replyThenExpiry :
    RoutesAgree (run step (Node.boot 0x01000000 0xFF000000 fun _ => 0) replyThenExpiry) :=
  routes_agree 0x01000000 0xFF000000 (fun _ => 0) replyThenExpiry
    ⟨fun _ => ⟨fun _ he => absurd he nofun, fun _ he => absurd he nofun⟩, trivial, trivial⟩

/-- The node has a route to 3.0.0.0 over 2.0.0.0 when 3.0.0.0 has come near and
    passes a reply on: the kernel's route goes to 3.0.0.0 directly, the table's
    still over 2.0.0.0. -/
def neighbourReply : List Input :=
  [receive 0x02000000 (replyAfter 1 0x03000000 5 0x01000000),
    receive 0x03000000 (replyAfter 1 0x04000000 7 0x01000000)]

theorem not_routes_agree_neighbourReply :
    ¬ ∀ (ip bcast : U32) (hello : Nat → Byte) (inputs : List Input),
      RoutesAgree (run step (Node.boot ip bcast hello) inputs) := by
  intro hall
  have hagree := hall 0x01000000 0xFF000000 (fun _ => 0) neighbourReply
  have hentry : ∃ e, (run step (Node.boot 0x01000000 0xFF000000 fun _ => 0)
      neighbourReply).routes.slots 3 = some e ∧ e.status = .routeValid ∧
      e.destIp = 0x03000000 ∧ e.nextHop = 0x02000000 := ⟨_, rfl, rfl, rfl, rfl⟩
  rcases hentry with ⟨e, he, hvalid, hdest, hhop⟩
  have hroute := (hagree 3 e he).1 hvalid
  rw [hdest, hhop] at hroute
  revert hroute
  decide

end OpenManet
