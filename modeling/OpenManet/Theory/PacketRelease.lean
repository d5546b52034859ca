import OpenManet.Core.Sections
import OpenManet.Theory.Effect

/-!
# Releasing Packets onto Routes

A call of `send_rreq` that accepts its packet relies on `rreq_search`, which says
that the search is over, and not that its route is installed: the reply publishes
the one in its first section and installs the other in its last. In between the
call may go on and return. It may also read the state of a later search, since
between leaving the loop and reading the outcome it holds nothing; and in the end
it writes `SEARCH_NONE` whatever the state is by then.

`SectionOk` names the steps that do not happen. Under it, a call in its loop finds
the search going on, failed, or answered by a reply that has installed the route
or is still about to (`Answered`).

## Main definitions

* `RouteSince`: The route is valid and was given to the kernel since.
* `ReplyPending`: A reply is published and its route not installed.
* `SectionOk`: The steps that do not happen.
* `Released`: Every call that has accepted its packet has a route.

## Theorems

* `apply_advances`: Sections of calls and replies only add routes.
* `sectionStep_inv`: A step keeps the invariant.
* `accept_released`: Accepted packets are released onto installed routes.
* `not_accept_released_unlucky`: A call returns between publishing and installing.
-/

namespace OpenManet

/-! ### Sections only add routes -/

/-- Entries stay, valid routes stay valid, and the record of calls grows. -/
structure Advances (n n' : Node) : Prop where
  entries : ∀ i e, n.routes.slots i = some e → ∃ e', n'.routes.slots i = some e' ∧
    e'.destIp = e.destIp ∧ (e.status = .routeValid → e'.status = .routeValid)
  log : ∃ calls, n'.log = calls ++ n.log
  ipAddress : n'.ipAddress = n.ipAddress

theorem advances_refl (n : Node) : Advances n n :=
  ⟨fun _ e he => ⟨e, he, rfl, fun h => h⟩, ⟨[], rfl⟩, rfl⟩

theorem advances_trans (n₁ n₂ n₃ : Node) (h : Advances n₁ n₂) (h' : Advances n₂ n₃) :
    Advances n₁ n₃ where
  entries := by
    intro i e he
    rcases h.entries i e he with ⟨e₂, he₂, hip, hvalid⟩
    rcases h'.entries i e₂ he₂ with ⟨e₃, he₃, hip', hvalid'⟩
    exact ⟨e₃, he₃, hip'.trans hip, fun hv => hvalid' (hvalid hv)⟩
  log := by
    rcases h.log with ⟨calls, hcalls⟩
    rcases h'.log with ⟨calls', hcalls'⟩
    exact ⟨calls' ++ calls, by rw [hcalls', hcalls, List.append_assoc]⟩
  ipAddress := h'.ipAddress.trans h.ipAddress

/-- The operation breaks no route and removes no entry. -/
def Op.KeepsRoutes : Op → Prop
  | breakRoute _ _ _ | linkBreak _ _ | outgoingBreak _ _ | expireRoute _ _ | removeEntry _ => False
  | _ => True

theorem effect_valid (n : Node) (o : Op) (hkeeps : o.KeepsRoutes) (ip : U32)
    (f : RoutingEntry → RoutingEntry) (heff : o.effect n = .update ip f) (e : RoutingEntry)
    (hvalid : e.status = .routeValid) : (f e).status = .routeValid := by
  -- The sections that write a route leave it up, or as they find it.
  cases o with
  | previousHop env s l new =>
      cases heff
      rcases previousHop_eq env new e l with ⟨t, ht⟩
      rw [ht]
  | reverseRoute env s m new =>
      cases heff
      exact (reverseRoute_up env s new e m).1
  | hello env m new =>
      cases heff
      by_cases hm : takesHello m new e
      · rcases hello_accepted env new e m hm with ⟨t, ht⟩
        rw [ht]
        exact hvalid
      · rw [hello_refused env new e m hm]
        exact hvalid
  | forwardRoute env s m new =>
      cases heff
      exact (forwardRoute_up env s new e m).1
  | activate ip =>
      cases heff
      rw [activate_eq]
      exact hvalid
  | write ip w =>
      cases heff
      cases w <;> exact hvalid
  | searchFound | startSearch | searchFailed =>
      cases heff
      exact hvalid
  | breakRoute | linkBreak | outgoingBreak | expireRoute => exact absurd hkeeps id
  | create | removeEntry | beginWait | moveWaiter | moveHello | incrementSequenceNum
  | writeSequenceNum | sendRreq | sendUnicast | sendBroadcast => cases heff

theorem apply_advances (o : Op) (n : Node) (hkeeps : o.KeepsRoutes) : Advances n (o.apply n) where
  entries := by
    intro i e he
    have hkept : ∀ ip, o.effect n = .remove ip → i ≠ slotOf ip := by
      intro ip heff
      cases o with
      | removeEntry => exact absurd hkeeps id
      | _ => cases heff
    rcases entry_fate n o i e he hkept with hsame | ⟨ip, f, heff, -, hwritten⟩
    · exact ⟨e, hsame, rfl, fun h => h⟩
    · exact ⟨f e, hwritten, effect_keeps n o ip f heff e, effect_valid n o hkeeps ip f heff e⟩
  log := ⟨o.calls n, apply_log n o⟩
  ipAddress := apply_ipAddress n o

/-! ### What becomes of the state of the search -/

/-- The state of a search, slot by slot. -/
theorem searchAt_eq (ip : U32) (n : Node) :
    n.searchAt ip = ((n.routes.slots (slotOf ip)).map (·.rreqSearch)).getD .searchNone := by
  unfold Node.searchAt
  rw [Node.getRoutingEntry_eq]
  cases n.routes.slots (slotOf ip) <;> rfl

theorem apply_searchAt (o : Op) (n : Node) (hkeeps : o.KeepsSearch) (d : U32) :
    (o.apply n).searchAt d = n.searchAt d := by
  rw [searchAt_eq, searchAt_eq, apply_slots]
  cases heff : o.effect n with
  | keep => rfl
  | create fresh =>
      simp only [Effect.slot]
      split
      · cases n.routes.slots (slotOf d) with
        | none =>
            -- A fresh entry is not searched for, nor is one that is not there.
            cases o with
            | create => cases heff; rfl
            | _ => cases heff
        | some e => rfl
      · rfl
  | update ip f =>
      simp only [Effect.slot]
      split
      · cases n.routes.slots (slotOf d) with
        | none => rfl
        | some e => exact effect_rreqSearch n o hkeeps ip f heff e
      · rfl
  | remove ip =>
      cases o with
      | removeEntry => exact absurd hkeeps id
      | _ => cases heff

/-- An update of the entry, as the search sees it. -/
theorem update_searchAt (o : Op) (n : Node) (ip d : U32) (f : RoutingEntry → RoutingEntry)
    (heff : o.effect n = .update ip f) (status : RreqStatus)
    (hf : ∀ e, (f e).rreqSearch = status) :
    (o.apply n).searchAt d =
      if slotOf d = slotOf ip ∧ (n.getRoutingEntry d).isSome = true then status
      else n.searchAt d := by
  rw [searchAt_eq, searchAt_eq, apply_slots, heff, Node.getRoutingEntry_eq]
  simp only [Effect.slot]
  by_cases hslot : slotOf d = slotOf ip
  · cases n.routes.slots (slotOf d) with
    | none => simp only [if_pos hslot, Option.map_none, Option.isSome_none,
      Bool.false_eq_true, and_false, if_false]
    | some e =>
        simp only [if_pos hslot, Option.map_some, Option.getD_some, hf, Option.isSome_some,
          and_true]
  · rw [if_neg hslot, if_neg (fun h => hslot h.1)]

/-! ### The condition and the invariant -/

/-- There is a valid route for the address, and it has been given to the kernel
    since so many calls were recorded. -/
def RouteSince (d : U32) (since : Nat) (n : Node) : Prop :=
  (∃ e, n.getRoutingEntry d = some e ∧ e.destIp = d ∧ e.status = .routeValid) ∧
    ∃ gateway, ApiCall.addUnicastRoutingEntry d gateway ∈ n.log.take (n.log.length - since)

/-- The execution has published the outcome of a search and is yet to install the
    route. -/
def ReplyTask.Pending (own d : U32) (t : ReplyTask) : Prop :=
  (t.stage = .published ∨ t.stage = .hopDone) ∧ t.message.destIp = d ∧ t.message.srcIp = own ∧
    t.message.srcIp ≠ 0

instance (own d : U32) (t : ReplyTask) : Decidable (t.Pending own d) :=
  inferInstanceAs (Decidable (_ ∧ _))

/-- A reply about the address is published and its route not installed. -/
def ReplyPending (d : U32) (s : Sections) : Prop :=
  ∃ t ∈ s.replies, t.Pending s.node.ipAddress d

instance (d : U32) (s : Sections) : Decidable (ReplyPending d s) :=
  inferInstanceAs (Decidable (∃ t ∈ s.replies, _))

/-- The call waits for the outcome of a search. -/
def CallStage.inLoop : CallStage → Bool
  | waiting _ | left _ => true
  | _ => false

/-- Some call waits for the outcome of a search. -/
def Sections.waited (s : Sections) : Bool := s.calls.any CallStage.inLoop

/-- The next access of a call does none of these: find another address's entry;
    take the state of a later search for the outcome; accept the packet before a
    published reply is installed, or write `SEARCH_NONE` over a search or a failure
    that others wait for. -/
def AdvanceOk (d : U32) (s : Sections) : CallStage → Prop
  | .entered => ∀ e, s.node.getRoutingEntry d = some e → e.destIp = d
  | .left _ => s.node.searchAt d ≠ .searchSearching
  | .decided _ outcome =>
    outcome ≠ .searchFailed →
      ¬ ReplyPending d s ∧ (s.waited = true →
        s.node.searchAt d ≠ .searchSearching ∧ s.node.searchAt d ≠ .searchFailed)
  | _ => True

/-- A reply that publishes an outcome to a call that waits is about its address and
    no hello. -/
def PublishOk (d : U32) (s : Sections) (t : ReplyTask) : Prop :=
  t.stage = .arrived → t.message.srcIp = s.node.ipAddress →
    slotOf t.message.destIp = slotOf d → s.waited = true →
    t.message.destIp = d ∧ t.message.srcIp ≠ 0

def SectionOk (d : U32) (s : Sections) (input : SectionInput) : Prop :=
  match input.event with
  | .advance k => ∀ stage, s.calls[k]? = some stage → AdvanceOk d s stage
  | .section k => ∀ t, s.replies[k]? = some t → PublishOk d s t
  | _ => True

instance (d : U32) (s : Sections) (stage : CallStage) : Decidable (AdvanceOk d s stage) := by
  cases stage with
  | entered => exact decidableFound (s.node.getRoutingEntry d) fun e => e.destIp = d
  | _ => unfold AdvanceOk; infer_instance

instance (d : U32) (s : Sections) (t : ReplyTask) : Decidable (PublishOk d s t) :=
  inferInstanceAs (Decidable (_ → _))

instance (d : U32) (s : Sections) (input : SectionInput) : Decidable (SectionOk d s input) := by
  rcases input with ⟨env, event⟩
  cases event with
  | advance k => exact decidableFound s.calls[k]? fun stage => AdvanceOk d s stage
  | «section» k => exact decidableFound s.replies[k]? fun t => PublishOk d s t
  | _ => unfold SectionOk; infer_instance

/-- Every call that has accepted its packet has a route installed since its search
    started. -/
def Released (d : U32) (s : Sections) : Prop :=
  ∀ since, .returned since .packetAccept ∈ s.calls → RouteSince d since s.node

/-- The entry in the slot of the address is its own. -/
def OwnEntry (d : U32) (n : Node) : Prop := ∃ e, n.getRoutingEntry d = some e ∧ e.destIp = d

/-- The route is installed or about to be. -/
def Outstanding (d : U32) (since : Nat) (s : Sections) : Prop :=
  ReplyPending d s ∨ RouteSince d since s.node

/-- A call in its loop finds the search going on or failed, or its route
    outstanding. -/
def Answered (d : U32) (since : Nat) (s : Sections) : Prop :=
  s.node.searchAt d = .searchSearching ∨ s.node.searchAt d = .searchFailed ∨ Outstanding d since s

/-- What holds of a call at each of its stages. -/
def CallInv (d : U32) (s : Sections) : CallStage → Prop
  | .entered | .returned _ .packetDrop => True
  | .found _ | .passed _ | .joining | .starting => OwnEntry d s.node
  | .waiting since | .left since =>
    OwnEntry d s.node ∧ since ≤ s.node.log.length ∧ Answered d since s
  | .decided since outcome =>
    OwnEntry d s.node ∧ since ≤ s.node.log.length ∧
      (outcome = .searchFailed ∨ Outstanding d since s)
  | .returned since .packetAccept => RouteSince d since s.node

structure SectionInv (d : U32) (s : Sections) : Prop where
  start : s.searchStart ≤ s.node.log.length
  calls : ∀ c ∈ s.calls, CallInv d s c

/-! ### What a step leaves to the calls it is not about -/

theorem routeSince_mono {d : U32} {since : Nat} {n n' : Node} (hadv : Advances n n')
    (h : RouteSince d since n) : RouteSince d since n' := by
  rcases h with ⟨⟨e, he, hip, hvalid⟩, gateway, hgateway⟩
  rcases hadv.entries _ e he with ⟨e', he', hip', hvalid'⟩
  rcases hadv.log with ⟨calls, hcalls⟩
  refine ⟨⟨e', he', hip'.trans hip, hvalid' hvalid⟩, gateway, ?_⟩
  have hsince : since ≤ n.log.length := by
    refine Nat.le_of_not_lt (fun hlt => ?_)
    rw [Nat.sub_eq_zero_of_le (Nat.le_of_lt hlt)] at hgateway
    exact absurd hgateway List.not_mem_nil
  rw [hcalls, List.length_append, Nat.add_sub_assoc hsince, List.take_length_add_append]
  exact List.mem_append_right _ hgateway

theorem ownEntry_mono {d : U32} {n n' : Node} (hadv : Advances n n') (h : OwnEntry d n) :
    OwnEntry d n' := by
  rcases h with ⟨e, he, hip⟩
  rcases hadv.entries _ e he with ⟨e', he', hip', -⟩
  exact ⟨e', he', hip'.trans hip⟩

theorem log_length_mono {n n' : Node} (hadv : Advances n n') : n.log.length ≤ n'.log.length := by
  rcases hadv.log with ⟨calls, hcalls⟩
  rw [hcalls, List.length_append]
  exact Nat.le_add_left _ _

/-- What a step does to the calls it is not about. -/
structure Undisturbed (d : U32) (s s' : Sections) : Prop where
  advances : Advances s.node s'.node
  /-- A published reply stays so or is installed. -/
  pending : OwnEntry d s.node → ReplyPending d s → ReplyPending d s' ∨
    ∀ since, since ≤ s.node.log.length → RouteSince d since s'.node
  /-- The state of the search stays, goes to one a call goes on from, comes with a
      published reply, or leaves one the call has been answered in. -/
  search : s.waited = true → s'.node.searchAt d = s.node.searchAt d ∨
    s'.node.searchAt d = .searchSearching ∨ s'.node.searchAt d = .searchFailed ∨
    ReplyPending d s' ∨
    (s.node.searchAt d ≠ .searchSearching ∧ s.node.searchAt d ≠ .searchFailed)

theorem outstanding_mono {d : U32} {s s' : Sections} (h : Undisturbed d s s')
    (hown : OwnEntry d s.node) {since : Nat} (hsince : since ≤ s.node.log.length)
    (hout : Outstanding d since s) : Outstanding d since s' := by
  rcases hout with hpending | hroute
  · rcases h.pending hown hpending with hpending' | hinstalled
    · exact Or.inl hpending'
    · exact Or.inr (hinstalled since hsince)
  · exact Or.inr (routeSince_mono h.advances hroute)

theorem answered_mono {d : U32} {s s' : Sections} (h : Undisturbed d s s')
    (hwaited : s.waited = true) (hown : OwnEntry d s.node) {since : Nat}
    (hsince : since ≤ s.node.log.length) (hans : Answered d since s) : Answered d since s' := by
  rcases h.search hwaited with hsame | hsearching | hfailed | hpending | ⟨hnot, hnot'⟩
  · rcases hans with hsearching | hfailed | hout
    · exact Or.inl (hsame.trans hsearching)
    · exact Or.inr (Or.inl (hsame.trans hfailed))
    · exact Or.inr (Or.inr (outstanding_mono h hown hsince hout))
  · exact Or.inl hsearching
  · exact Or.inr (Or.inl hfailed)
  · exact Or.inr (Or.inr (Or.inl hpending))
  · rcases hans with hsearching | hfailed | hout
    · exact absurd hsearching hnot
    · exact absurd hfailed hnot'
    · exact Or.inr (Or.inr (outstanding_mono h hown hsince hout))

/-- A call that is not moved keeps what holds of it. -/
theorem callInv_mono {d : U32} {s s' : Sections} (h : Undisturbed d s s') (c : CallStage)
    (hc : c ∈ s.calls) (hinv : CallInv d s c) : CallInv d s' c := by
  have hwaited : c.inLoop = true → s.waited = true :=
    fun hloop => List.any_eq_true.mpr ⟨c, hc, hloop⟩
  -- What each stage knows survives, since entries and calls are only added to.
  cases c with
  | entered => trivial
  | found | passed | joining | starting => exact ownEntry_mono h.advances hinv
  | waiting since | left since =>
      rcases hinv with ⟨hown, hsince, hans⟩
      exact ⟨ownEntry_mono h.advances hown, Nat.le_trans hsince (log_length_mono h.advances),
        answered_mono h (hwaited rfl) hown hsince hans⟩
  | decided since outcome =>
      rcases hinv with ⟨hown, hsince, hout⟩
      refine ⟨ownEntry_mono h.advances hown, Nat.le_trans hsince (log_length_mono h.advances), ?_⟩
      rcases hout with hfailed | hout
      · exact Or.inl hfailed
      · exact Or.inr (outstanding_mono h hown hsince hout)
  | returned since verdict =>
      cases verdict with
      | packetDrop => trivial
      | packetAccept => exact routeSince_mono h.advances hinv

/-! ### The sections of a reply -/

/-- A program of operations that break no route and leave searches alone. -/
def Handler.OnlyInstalls (h : Handler) (n : Node) : Prop :=
  h.Meets Op.apply (fun o _ => o.KeepsRoutes ∧ o.KeepsSearch) n

theorem exec_advances (h : Handler) (n : Node) (honly : h.OnlyInstalls n) :
    Advances n (h.exec Op.apply n).1 :=
  Prog.exec_relation Op.apply (fun o _ => o.KeepsRoutes ∧ o.KeepsSearch) Advances advances_refl
    advances_trans (fun o n hok => apply_advances o n hok.1) h n honly

theorem exec_searchAt (h : Handler) (n : Node) (honly : h.OnlyInstalls n) (d : U32) :
    (h.exec Op.apply n).1.searchAt d = n.searchAt d :=
  Prog.exec_relation Op.apply (fun o _ => o.KeepsRoutes ∧ o.KeepsSearch)
    (fun n n' => n'.searchAt d = n.searchAt d) (fun _ => rfl) (fun _ _ _ h h' => h'.trans h)
    (fun o n hok => apply_searchAt o n hok.2 d) h n honly

theorem previousHopSection_onlyInstalls (env : Env) (s l : U32) (n : Node) :
    (previousHopSection env s l acceptPacket).OnlyInstalls n :=
  ⟨⟨trivial, trivial⟩, ⟨trivial, trivial⟩, trivial⟩

theorem recvHello_onlyInstalls (env : Env) (s : U32) (m : RrepHeader) (n : Node) :
    (recvHello env s m).OnlyInstalls n :=
  ⟨⟨trivial, trivial⟩, ⟨trivial, trivial⟩, trivial⟩

theorem afterForwardRoute_onlyInstalls (m : RrepHeader) (n : Node) :
    (afterForwardRoute m).OnlyInstalls n := by
  refine ⟨⟨trivial, trivial⟩, ?_⟩
  simp only []
  split
  · simp only [forwardRrep, Prog.Meets]
    split
    · exact ⟨⟨trivial, trivial⟩, ⟨trivial, trivial⟩, ⟨trivial, trivial⟩,
        ⟨trivial, trivial⟩, trivial⟩
    · trivial
  · trivial

theorem installForwardRoute_onlyInstalls (env : Env) (s : U32) (m : RrepHeader) (n : Node) :
    (installForwardRoute env s m).OnlyInstalls n :=
  ⟨⟨trivial, trivial⟩, ⟨trivial, trivial⟩, afterForwardRoute_onlyInstalls m _⟩

/-- The last section installs the route. -/
theorem installForwardRoute_routeSince (env : Env) (s : U32) (m : RrepHeader) (n : Node)
    (hown : OwnEntry m.destIp n) (since : Nat) (hsince : since ≤ n.log.length) :
    RouteSince m.destIp since ((installForwardRoute env s m).exec Op.apply n).1 := by
  let create : Op := .create env m.destIp m.destSeq .seqValid s (m.hopCount.setWidth 32) m.lifetime
  have hcreate := apply_advances create n trivial
  rcases ownEntry_mono hcreate hown with ⟨e, he, hip⟩
  generalize hn : create.apply n = n₁ at hcreate he
  let route : Op := .forwardRoute env s m (n.isNew m.destIp)
  have hexec : (installForwardRoute env s m).exec Op.apply n =
      (afterForwardRoute m).exec Op.apply (route.apply n₁) := by
    rw [← hn]
    rfl
  rw [hexec]
  -- What follows the installation leaves the route as it is.
  refine routeSince_mono (exec_advances _ _ (afterForwardRoute_onlyInstalls m _)) ⟨?_, s, ?_⟩
  · refine ⟨e.forwardRoute env s m (n.isNew m.destIp), ?_, ?_, ?_⟩
    · rw [Node.getRoutingEntry_eq] at he ⊢
      rw [apply_slots, he]
      simp only [route, Op.effect, Effect.slot, if_true, Option.map_some]
    · rw [forwardRoute_destIp]
      exact hip
    · exact (forwardRoute_up env s _ e m).1
  · -- The call may come twice; the latest is what counts.
    have hcalls : ∃ rest, route.calls n₁ = .addUnicastRoutingEntry m.destIp s :: rest := by
      simp only [route, Op.calls, Node.whenFound, he]
      split
      · exact ⟨_, rfl⟩
      · exact ⟨_, rfl⟩
    rcases hcalls with ⟨rest, hrest⟩
    have hlength := log_length_mono hcreate
    rw [apply_log, hrest, List.cons_append, List.length_cons, List.length_append]
    rw [show rest.length + n₁.log.length + 1 - since = (rest.length + n₁.log.length - since) + 1 by
      omega, List.take_succ_cons]
    exact List.mem_cons_self

/-- The first section publishes that the search is over, or does nothing. -/
theorem publishFound_cases (m : RrepHeader) (n : Node) :
    ((publishFound m acceptPacket).exec Op.apply n).1 = n ∨
      (n.ipAddress = m.srcIp ∧
        ((publishFound m acceptPacket).exec Op.apply n).1 = (Op.searchFound m.destIp).apply n) := by
  simp only [publishFound, Prog.exec]
  by_cases hpub : n.ipAddress = m.srcIp ∧ (n.getRoutingEntry m.destIp).isSome = true
  · rw [if_pos hpub]
    exact Or.inr ⟨hpub.1, rfl⟩
  · rw [if_neg hpub]
    exact Or.inl rfl

/-- A section of one execution leaves another published. -/
theorem pending_set {d own : U32} (replies : List ReplyTask) (k : Nat) (t t' : ReplyTask)
    (ht : replies[k]? = some t) (u : ReplyTask) (hu : u ∈ replies) (hpending : u.Pending own d)
    (hmoved : t.Pending own d → t'.Pending own d) : ∃ u ∈ replies.set k t', u.Pending own d := by
  rcases List.mem_iff_getElem?.mp hu with ⟨j, hj⟩
  have hk : k < replies.length := (List.getElem?_eq_some_iff.mp ht).1
  by_cases hjk : k = j
  · subst hjk
    rw [ht, Option.some.injEq] at hj
    exact ⟨t', List.mem_set hk t', hmoved (hj ▸ hpending)⟩
  · refine ⟨u, List.mem_iff_getElem?.mpr ⟨j, ?_⟩, hpending⟩
    rw [List.getElem?_set_ne hjk, hj]

theorem runSection_undisturbed (d : U32) (env : Env) (s : Sections) (k : Nat) (t : ReplyTask)
    (ht : s.replies[k]? = some t) (hok : PublishOk d s t) :
    Undisturbed d s (s.runSection env k t) := by
  have hk : k < s.replies.length := (List.getElem?_eq_some_iff.mp ht).1
  -- A section that only installs: the pending reply stays pending or is this one.
  have honly : ∀ h : Handler, ∀ stage, t.nextSection env = (h, stage) → h.OnlyInstalls s.node →
      (OwnEntry d s.node → t.Pending s.node.ipAddress d →
        ({ t with stage := stage } : ReplyTask).Pending s.node.ipAddress d ∨
        ∀ since, since ≤ s.node.log.length →
          RouteSince d since (h.exec Op.apply s.node).1) →
      Undisturbed d s (s.runSection env k t) := by
    intro h stage hnext hinstalls hthis
    have hrun : s.runSection env k t = { s with
        node := (h.exec Op.apply s.node).1,
        replies := s.replies.set k { t with stage := stage } } := by
      unfold Sections.runSection
      rw [hnext]
    have hadv := exec_advances h s.node hinstalls
    rw [hrun]
    refine ⟨hadv, fun hown hpending => ?_, fun _ => Or.inl (exec_searchAt h s.node hinstalls d)⟩
    rcases hpending with ⟨u, hu, hpend⟩
    by_cases hmoved : t.Pending s.node.ipAddress d →
        ({ t with stage := stage } : ReplyTask).Pending s.node.ipAddress d
    · rcases pending_set s.replies k t { t with stage := stage } ht u hu hpend hmoved with
          ⟨u', hu', hpend'⟩
      exact Or.inl ⟨u', hu', hadv.ipAddress ▸ hpend'⟩
    · rcases Classical.not_imp.mp hmoved with ⟨htpend, hnot⟩
      exact Or.inr ((hthis hown htpend).resolve_left hnot)
  cases hstage : t.stage with
  | arrived =>
      have hnext : t.nextSection env = (publishFound t.message acceptPacket, .published) := by
        unfold ReplyTask.nextSection
        rw [hstage]
      have hnotyet : ¬ t.Pending s.node.ipAddress d := by
        rintro ⟨hearly | hearly, -⟩ <;> rw [hstage] at hearly <;> cases hearly
      rcases publishFound_cases t.message s.node with hnone | ⟨hsrc, hfound⟩
      · have hrun : s.runSection env k t =
            { s with replies := s.replies.set k { t with stage := .published } } := by
          unfold Sections.runSection
          rw [hnext]
          simp only [hnone]
        rw [hrun]
        refine ⟨advances_refl _, fun _ ⟨u, hu, hpend⟩ => ?_, fun _ => Or.inl rfl⟩
        exact Or.inl (pending_set s.replies k t _ ht u hu hpend (fun h => absurd h hnotyet))
      · have hrun : s.runSection env k t =
            { s with
              node := (Op.searchFound t.message.destIp).apply s.node
              replies := s.replies.set k { t with stage := .published } } := by
          unfold Sections.runSection
          rw [hnext]
          simp only [hfound]
        have hadv := apply_advances (.searchFound t.message.destIp) s.node trivial
        rw [hrun]
        refine ⟨hadv, fun _ ⟨u, hu, hpend⟩ => ?_, fun hwaited => ?_⟩
        · obtain ⟨u', hu', hpend'⟩ :=
            pending_set s.replies k t { t with stage := .published } ht u hu
            hpend (fun h => absurd h hnotyet)
          exact Or.inl ⟨u', hu', hadv.ipAddress ▸ hpend'⟩
        · by_cases hslot : slotOf t.message.destIp = slotOf d
          · -- The reply is for the calls that wait, and pending from now on.
            rcases hok hstage hsrc.symm hslot hwaited with ⟨hdest, hsrc0⟩
            refine Or.inr (Or.inr (Or.inr (Or.inl
              ⟨{ t with stage := .published }, List.mem_set hk _, ?_⟩)))
            exact ⟨Or.inl rfl, hdest, hadv.ipAddress ▸ hsrc.symm, hsrc0⟩
          · refine Or.inl ((update_searchAt (.searchFound t.message.destIp) s.node
              t.message.destIp d
              RoutingEntry.searchFound rfl .searchFound (fun _ => rfl)).trans (if_neg ?_))
            exact fun h => hslot h.1.symm
  | published =>
      by_cases hhello : t.message.srcIp = 0
      · refine honly (recvHello env t.senderIp (incrementHopRrep t.message)) .done ?_
          (recvHello_onlyInstalls env _ _ _) (fun _ hpend => absurd hhello hpend.2.2.2)
        unfold ReplyTask.nextSection
        rw [hstage]
        exact if_pos hhello
      · refine honly (previousHopSection env t.senderIp t.message.destIp acceptPacket) .hopDone ?_
          (previousHopSection_onlyInstalls env _ _ _) (fun _ hpend => Or.inl ⟨Or.inr rfl, hpend.2⟩)
        unfold ReplyTask.nextSection
        rw [hstage]
        exact if_neg hhello
  | hopDone =>
      refine honly (installForwardRoute env t.senderIp (incrementHopRrep t.message)) .done ?_
        (installForwardRoute_onlyInstalls env _ _ _) (fun hown hpend => Or.inr ?_)
      · unfold ReplyTask.nextSection
        rw [hstage]
      · intro since hsince
        have hdest : (incrementHopRrep t.message).destIp = d := hpend.2.1
        rw [← hdest] at hown ⊢
        exact installForwardRoute_routeSince env t.senderIp _ s.node hown since hsince
  | done =>
      refine honly acceptPacket .done ?_ trivial (fun _ hpend => ?_)
      · unfold ReplyTask.nextSection
        rw [hstage]
      · rcases hpend.1 with hearly | hearly <;> rw [hstage] at hearly <;> cases hearly

/-! ### The search threads -/

/-- The operations of a search thread: the search it gives up has failed. -/
def SearchThreadOp : Op → Node → Prop
  | .searchFailed _ _ _, _ => True
  | o, _ => o.KeepsRoutes ∧ o.KeepsSearch

theorem retryStep_ops (env : Env) (t : SearchThread) (rreq : RreqHeader) (i : Nat) (n : Node) :
    (retryStep env t rreq i).Meets Op.apply SearchThreadOp n := by
  unfold retryStep
  split
  · exact ⟨⟨trivial, trivial⟩, trivial⟩
  · exact ⟨trivial, trivial⟩

theorem ringStep_ops (env : Env) (t : SearchThread) (rreq : RreqHeader) (ttl : U32) (n : Node) :
    (ringStep env t rreq ttl).Meets Op.apply SearchThreadOp n := by
  unfold ringStep
  split
  · exact ⟨⟨trivial, trivial⟩, trivial⟩
  · exact retryStep_ops env t rreq 0 n

theorem searchThreadStep_ops (env : Env) (id : Nat) (n : Node) :
    (searchThreadStep env id).Meets Op.apply SearchThreadOp n := by
  simp only [searchThreadStep, Prog.Meets]
  cases n.threads.find? (fun t => t.id = id) with
  | none => trivial
  | some t =>
      simp only []
      cases t.stage with
      | starting =>
          refine ⟨⟨trivial, trivial⟩, ?_⟩
          simp only [Prog.Meets]
          split
          · trivial
          · exact ringStep_ops env t _ _ _
      | ring rreq ttl => exact ringStep_ops env t rreq ttl n
      | retry rreq i => exact retryStep_ops env t rreq i n

theorem searchThreadOp_advances (o : Op) (n : Node) (h : SearchThreadOp o n) :
    Advances n (o.apply n) := by
  cases o with
  | searchFailed => exact apply_advances _ n trivial
  | _ => exact apply_advances _ n h.1

theorem searchThreadOp_searchAt (d : U32) (o : Op) (n : Node) (h : SearchThreadOp o n) :
    (o.apply n).searchAt d = n.searchAt d ∨ (o.apply n).searchAt d = .searchFailed := by
  cases o with
  | searchFailed env id ip =>
      rw [update_searchAt (.searchFailed env id ip) n ip d (RoutingEntry.searchFailed env) rfl
        .searchFailed (fun _ => rfl)]
      split
      · exact Or.inr rfl
      · exact Or.inl rfl
  | _ => exact Or.inl (apply_searchAt _ n h.2 d)

theorem search_undisturbed (d : U32) (env : Env) (s : Sections) (id : Nat) :
    Undisturbed d s { s with node := step s.node { env := env, event := .search id } } := by
  have hadv : Advances s.node (step s.node { env := env, event := .search id }) :=
    Prog.exec_relation Op.apply SearchThreadOp Advances advances_refl advances_trans
      searchThreadOp_advances (searchThreadStep env id) s.node (searchThreadStep_ops env id s.node)
  -- A search thread either leaves the outcome alone or gives up.
  have hsearch : (step s.node { env := env, event := .search id }).searchAt d = s.node.searchAt d ∨
      (step s.node { env := env, event := .search id }).searchAt d = .searchFailed :=
    Prog.exec_relation Op.apply SearchThreadOp
      (fun n n' => n'.searchAt d = n.searchAt d ∨ n'.searchAt d = .searchFailed)
      (fun _ => Or.inl rfl)
      (fun n₁ n₂ n₃ h h' => by
        rcases h' with hsame | hfailed
        · rw [hsame]
          exact h
        · exact Or.inr hfailed)
      (searchThreadOp_searchAt d) (searchThreadStep env id) s.node
      (searchThreadStep_ops env id s.node)
  refine ⟨hadv, fun _ ⟨u, hu, hpend⟩ => Or.inl ⟨u, hu, hadv.ipAddress ▸ hpend⟩, fun _ => ?_⟩
  rcases hsearch with hsame | hfailed
  · exact Or.inl hsame
  · exact Or.inr (Or.inr (Or.inl hfailed))

/-! ### The accesses of a call -/

/-- An access that is one operation on the node and leaves the replies alone. -/
theorem undisturbed_of_op (d : U32) (s s' : Sections) (o : Op) (hnode : s'.node = o.apply s.node)
    (hreplies : s'.replies = s.replies) (hroutes : o.KeepsRoutes)
    (hsearch : s.waited = true → (o.apply s.node).searchAt d = s.node.searchAt d ∨
      (o.apply s.node).searchAt d = .searchSearching ∨
      (s.node.searchAt d ≠ .searchSearching ∧ s.node.searchAt d ≠ .searchFailed)) :
    Undisturbed d s s' := by
  have hadv := apply_advances o s.node hroutes
  refine ⟨hnode ▸ hadv, fun _ ⟨u, hu, hpend⟩ => Or.inl ⟨u, hreplies ▸ hu, ?_⟩, fun hwaited => ?_⟩
  · rw [hnode, hadv.ipAddress]
    exact hpend
  · rw [hnode]
    rcases hsearch hwaited with hsame | hsearching | hnot
    · exact Or.inl hsame
    · exact Or.inr (Or.inl hsearching)
    · exact Or.inr (Or.inr (Or.inr (Or.inr hnot)))

/-- An access that leaves the search as it is. -/
theorem undisturbed_of_quiet (d : U32) (s s' : Sections) (o : Op) (hroutes : o.KeepsRoutes)
    (hsearch : o.KeepsSearch) (hnode : s'.node = o.apply s.node)
    (hreplies : s'.replies = s.replies) : Undisturbed d s s' :=
  undisturbed_of_op d s s' o hnode hreplies hroutes
    (fun _ => Or.inl (apply_searchAt o s.node hsearch d))

/-- An access that changes nothing of the node. -/
theorem undisturbed_of_same (d : U32) (s s' : Sections) (hnode : s'.node = s.node)
    (hreplies : s'.replies = s.replies) : Undisturbed d s s' := by
  refine ⟨hnode ▸ advances_refl _, fun _ ⟨u, hu, hpend⟩ => Or.inl ⟨u, hreplies ▸ hu, ?_⟩,
    fun _ => Or.inl (by rw [hnode])⟩
  rw [hnode]
  exact hpend

/-- What an access leaves to the other calls, and what holds of the call after it. -/
theorem advance_call (d : U32) (env : Env) (s : Sections) (k : Nat) (stage : CallStage)
    (hstart : s.searchStart ≤ s.node.log.length) (hinv : CallInv d s stage)
    (hok : AdvanceOk d s stage) :
    Undisturbed d s (s.advance env d k stage) ∧
      CallInv d (s.advance env d k stage) (callStep env d s.searchStart s.node stage).2 := by
  cases stage with
  | entered =>
      -- The entry found or created is the destination's own, by the rule.
      let create : Op := .create env d 0 .seqInvalid 0 0 (toU32 myRouteTimeout)
      refine ⟨undisturbed_of_quiet d s _ create trivial trivial rfl rfl, ?_⟩
      have hown : OwnEntry d (create.apply s.node) ↔
          ∃ e, (create.apply s.node).routes.slots (slotOf d) = some e ∧ e.destIp = d := Iff.rfl
      refine hown.mpr ?_
      rw [apply_slots]
      simp only [create, Op.effect, Effect.slot, freshEntry, if_true]
      refine ⟨_, rfl, ?_⟩
      cases he : s.node.routes.slots (slotOf d) with
      | none => rfl
      | some e => exact hok e he
  | found new =>
      simp only [Sections.advance, callStep]
      split
      · exact ⟨undisturbed_of_same d s _ rfl rfl, trivial⟩
      · exact ⟨undisturbed_of_same d s _ rfl rfl, hinv⟩
  | passed new =>
      simp only [Sections.advance, callStep]
      split
      · exact ⟨undisturbed_of_quiet d s _ (.write d .stopTimer) trivial trivial rfl rfl,
          ownEntry_mono (apply_advances (.write d .stopTimer) s.node trivial) hinv⟩
      · exact ⟨undisturbed_of_same d s _ rfl rfl, hinv⟩
  | joining =>
      simp only [Sections.advance, callStep]
      split
      · rename_i hgoing
        exact ⟨undisturbed_of_same d s _ rfl rfl, hinv, hstart, Or.inl hgoing⟩
      · exact ⟨undisturbed_of_same d s _ rfl rfl, hinv⟩
  | starting =>
      -- The outcome becomes `SEARCHING`, so a call that waits goes on waiting.
      have hsearching : ((Op.startSearch d).apply s.node).searchAt d = .searchSearching := by
        rcases hinv with ⟨e, he, -⟩
        rw [update_searchAt (.startSearch d) s.node d d _ rfl .searchSearching (fun _ => rfl),
          if_pos ⟨rfl, by rw [he]; rfl⟩]
      have hundist : Undisturbed d s (s.advance env d k .starting) :=
        undisturbed_of_op d s _ (.startSearch d) rfl rfl trivial
          (fun _ => Or.inr (Or.inl hsearching))
      exact ⟨hundist, ownEntry_mono hundist.advances hinv, log_length_mono hundist.advances,
        Or.inl hsearching⟩
  | waiting since =>
      simp only [Sections.advance, callStep]
      split
      · exact ⟨undisturbed_of_same d s _ rfl rfl, hinv⟩
      · exact ⟨undisturbed_of_same d s _ rfl rfl, hinv⟩
  | left since =>
      rcases hinv with ⟨hown, hsince, hans⟩
      have hundist : Undisturbed d s (s.advance env d k (.left since)) :=
        undisturbed_of_quiet d s _ (.sendUnicast s.node.ipAddress .timing) trivial trivial rfl rfl
      refine ⟨hundist, ownEntry_mono hundist.advances hown,
        Nat.le_trans hsince (log_length_mono hundist.advances), ?_⟩
      rcases hans with hsearching | hfailed | hout
      · -- By the rule no later search has begun when the outcome is read.
        exact absurd hsearching hok
      · exact Or.inl hfailed
      · exact Or.inr (outstanding_mono hundist hown hsince hout)
  | decided since outcome =>
      rcases hinv with ⟨hown, hsince, hout⟩
      simp only [Sections.advance, callStep]
      split
      · exact ⟨undisturbed_of_quiet d s _ (.write d (.timer env 500)) trivial trivial rfl rfl,
          trivial⟩
      · rename_i hfound
        -- By the rule no published reply is still to be installed.
        rcases hok hfound with ⟨hinstalled, hothers⟩
        have hroute := (hout.resolve_left hfound).resolve_left hinstalled
        exact ⟨undisturbed_of_op d s _ (.write d .searchNone) rfl rfl trivial
          (fun hwaited => Or.inr (Or.inr (hothers hwaited))),
          routeSince_mono (apply_advances (.write d .searchNone) s.node trivial) hroute⟩
  | returned since verdict => exact ⟨undisturbed_of_same d s _ rfl rfl, hinv⟩

/-! ### Runs -/

theorem sectionStep_inv (d : U32) (s : Sections) (input : SectionInput) (h : SectionInv d s)
    (hok : SectionOk d s input) : SectionInv d (sectionStep d s input) := by
  rcases input with ⟨env, event⟩
  cases event with
  | call =>
      have hundist : Undisturbed d s { s with calls := s.calls ++ [.entered] } :=
        undisturbed_of_same d s _ rfl rfl
      refine ⟨h.start, fun c hc => ?_⟩
      rcases List.mem_append.mp hc with hold | hnew
      · exact callInv_mono hundist c hold (h.calls c hold)
      · rw [List.mem_singleton.mp hnew]
        trivial
  | advance k =>
      simp only [sectionStep]
      cases hk : s.calls[k]? with
      | none => exact h
      | some stage =>
          have hstage := List.mem_of_getElem? hk
          rcases advance_call d env s k stage h.start (h.calls stage hstage)
            (hok stage hk) with ⟨hundist, hmoved⟩
          refine ⟨?_, fun c hc => ?_⟩
          · have hlength := log_length_mono hundist.advances
            simp only [Sections.advance] at hlength ⊢
            split
            · exact hlength
            · exact Nat.le_trans h.start hlength
          · -- The call that moved is in its new stage; the others are undisturbed by it.
            rcases List.mem_or_eq_of_mem_set hc with hold | hnew
            · exact callInv_mono hundist c hold (h.calls c hold)
            · rw [hnew]
              exact hmoved
  | reply sender m =>
      have hundist : Undisturbed d s (sectionStep d s ⟨env, .reply sender m⟩) :=
        ⟨advances_refl _,
          fun _ ⟨u, hu, hpend⟩ => Or.inl ⟨u, List.mem_append_left _ hu, hpend⟩,
          fun _ => Or.inl rfl⟩
      exact ⟨h.start, fun c hc => callInv_mono hundist c hc (h.calls c hc)⟩
  | «section» k =>
      simp only [sectionStep]
      cases hk : s.replies[k]? with
      | none => exact h
      | some t =>
          have hundist := runSection_undisturbed d env s k t hk (hok t hk)
          exact ⟨Nat.le_trans h.start (log_length_mono hundist.advances),
            fun c hc => callInv_mono hundist c hc (h.calls c hc)⟩
  | search id =>
      have hundist := search_undisturbed d env s id
      exact ⟨Nat.le_trans h.start (log_length_mono hundist.advances),
        fun c hc => callInv_mono hundist c hc (h.calls c hc)⟩

/-- From any state of the node, in every interleaving of calls for an address with
    replies and search threads whose steps meet the condition, every call that has
    accepted its packet has a route that was installed since its search started. -/
theorem accept_released (d : U32) (n : Node) (inputs : List SectionInput)
    (hok : AllSteps (sectionStep d) (SectionOk d) (Sections.start n) inputs) :
    Released d (run (sectionStep d) (Sections.start n) inputs) := by
  have hstart : SectionInv d (Sections.start n) :=
    ⟨Nat.le_refl _, fun _ hc => absurd hc List.not_mem_nil⟩
  have hinv := run_invariant (sectionStep d) (SectionOk d) (SectionInv d)
    (fun s input h hok => sectionStep_inv d s input h hok) _ inputs hstart hok
  exact fun since hc => hinv.calls _ hc

/-- An event in clear surroundings. -/
def clearly (event : SectionEvent) : SectionInput := { env := .clear, event := event }

/-- The reply that answers a search of 1.0.0.0 for 3.0.0.0. -/
def answer : SectionEvent :=
  .reply 0x02000000
    (generateRrepMessage (fun _ => 0) 0 0x03000000 5 0x01000000 (toU32 myRouteTimeout))

/-- A search, its reply in full, and the call on its way out. -/
def answeredInFull : List SectionInput :=
  [.call, .advance 0, .advance 0, .advance 0, .advance 0, .advance 0, answer, .section 0,
    .advance 0, .section 0, .advance 0, .section 0, .advance 0].map clearly

theorem accept_released_inFull :
    Released 0x03000000 (run (sectionStep 0x03000000)
      (Sections.start (Node.boot 0x01000000 0xFF000000 fun _ => 0)) answeredInFull) :=
  accept_released 0x03000000 _ answeredInFull (by decide)

/-- The call goes on as soon as the outcome is published. -/
def answeredInPart : List SectionInput :=
  [.call, .advance 0, .advance 0, .advance 0, .advance 0, .advance 0, answer, .section 0,
    .advance 0, .advance 0, .advance 0].map clearly

/-- The packet is accepted while the entry is not valid. -/
theorem not_accept_released_unlucky :
    ¬ ∀ (d ip bcast : U32) (hello : Nat → Byte) (past : List Input) (inputs : List SectionInput),
      Released d (run (sectionStep d)
        (Sections.start (run step (Node.boot ip bcast hello) past)) inputs) := by
  intro hall
  have hreleased := hall 0x03000000 0x01000000 0xFF000000 (fun _ => 0) [] answeredInPart
  have hcalls : (run (sectionStep 0x03000000)
      (Sections.start (Node.boot 0x01000000 0xFF000000 fun _ => 0)) answeredInPart).calls =
      [.returned 0 .packetAccept] := by decide
  -- The packet is accepted, and the route to its destination is not valid.
  have hinvalid : ((run (sectionStep 0x03000000)
      (Sections.start (Node.boot 0x01000000 0xFF000000 fun _ => 0))
      answeredInPart).node.getRoutingEntry 0x03000000).map (·.status) = some .routeInvalid := by
    decide
  rcases hreleased 0 (by rw [run_nil, hcalls]; exact List.mem_cons_self) with
      ⟨⟨e, he, -, hvalid⟩, -⟩
  rw [run_nil] at he
  rw [he, Option.map_some, hvalid, Option.some.injEq] at hinvalid
  cases hinvalid

end OpenManet
