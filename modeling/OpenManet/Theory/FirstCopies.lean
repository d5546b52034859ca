import OpenManet.Theory.Installing
import OpenManet.Theory.KernelRoutes

/-!
# First Copies

The duplicate check compares the id of a request with the one the originator's entry
holds. An entry gets an id when a request of its address is taken up, and loses it when
its timer fires; before that the field holds what the block contained when it was
allocated. `create_or_get_routing_entry` is called in six places and none of them
assigns it. So a request nobody has seen can be taken for a copy because of what
happened to be in memory, even if the very call that handles it has made the entry,
for the previous hop.

What has been assigned is the id of a request received before, or zero. It need not be
one of the same originator: addresses with one top octet share an entry.

## Main definitions

* `Input.Receives`: The delivery of a request of this originator with this id.
* `IdHeard`: An assigned id is zero or was received for the slot.
* `TakesUp`: A request gets past the duplicate check and its reverse route is written.
* `UnassignedMatches`, `OtherRemembered`: What can stand in its way.

## Theorems

* `run_idHeard`: Every entry's id, in every run.
* `opsInclude_reverseRoute_iff`: When a request reaches its reverse route.
* `takesUp_iff`: When a first copy does.
-/

namespace OpenManet

/-! ### Where an id comes from -/

/-- A request of this originator with this id arrives at the node `ip` from another. -/
def Input.Receives (ip srcIp rreqId : U32) (input : Input) : Prop :=
  ∃ s m, input.event = .control s (.rreq m) ∧ s ≠ ip ∧ m.srcIp = srcIp ∧ m.rreqId = rreqId

/-- An id that has been assigned is zero or one heard in a request for the slot. -/
def IdHeard (heard : U32 → U32 → Prop) (e : RoutingEntry) : Prop :=
  e.rreqIdSet = true →
    e.rreqId = 0 ∨ ∃ srcIp, slotOf srcIp = slotOf e.destIp ∧ heard srcIp e.rreqId

/-- An operation of a step that delivers only what is heard. -/
theorem idHeard_apply (heard : U32 → U32 → Prop) (event : Event) (o : Op) (n : Node)
    (hheard : ∀ s m, event = .control s (.rreq m) → heard m.srcIp m.rreqId)
    (hguard : o.Guard event n) (hn : n.Entries (IdHeard heard)) :
    (o.apply n).Entries (IdHeard heard) := by
  intro i e he
  rcases entry_origin n o i e he with hfresh | hold | ⟨ip, f, e₀, heff, hslot, he₀, rfl⟩
  · -- A fresh entry has no id assigned.
    cases o with
    | create =>
        cases hfresh
        exact fun hset => absurd hset Bool.false_ne_true
    | _ => cases hfresh
  · exact hn i e hold
  · intro hset
    have haddress := effect_keeps n o ip f heff e₀
    by_cases hkeeps : o.KeepsRreqId
    · rcases effect_id n o hkeeps ip f heff e₀ with ⟨hid, hsame⟩
      rw [hid, haddress]
      exact hn i e₀ he₀ (hsame.symm.trans hset)
    · cases o with
      | reverseRoute env s m new =>
          cases heff
          rcases hguard.1 with ⟨m₀, hevent, rfl⟩
          refine Or.inr ⟨m₀.srcIp, ?_, ?_⟩
          · rw [haddress, n.routes.keyed i e₀ he₀, hslot]
            rfl
          · rw [reverseRoute_rreqId]
            exact hheard s m₀ hevent
      | write ip' w =>
          cases heff
          cases w with
          | forgetRreqId => exact Or.inl rfl
          | timer | stopTimer | precursor | searchNone => exact absurd trivial hkeeps
      | removeEntry => cases heff
      | _ => exact absurd trivial hkeeps

theorem idHeard_step (heard : U32 → U32 → Prop) (n : Node) (input : Input)
    (hheard : ∀ srcIp rreqId, input.Receives n.ipAddress srcIp rreqId → heard srcIp rreqId)
    (hn : n.Entries (IdHeard heard)) : (step n input).Entries (IdHeard heard) := by
  by_cases hself : ∃ message, input.event = .control n.ipAddress message
  · -- A node does not listen to itself.
    rcases input with ⟨env, event⟩
    rcases hself with ⟨message, hevent⟩
    cases hevent
    rw [step_own]
    exact hn
  · refine Prog.exec_invariant Op.apply (Op.Guard input.event) (Node.Entries (IdHeard heard))
      (fun o n' hn' hguard =>
        idHeard_apply heard input.event o n' (fun s m hevent => ?_) hguard hn')
      input.handler n hn (handler_guard n input)
    refine hheard m.srcIp m.rreqId ⟨s, m, hevent, fun hs => hself ⟨.rreq m, ?_⟩, rfl, rfl⟩
    rw [hevent, hs]

/-- After any run an assigned id is zero or was received for the slot. -/
theorem run_idHeard (ip bcast : U32) (hello : Nat → Byte) (past : List Input) :
    (run step (Node.boot ip bcast hello) past).Entries
      (IdHeard fun srcIp rreqId => ∃ input ∈ past, input.Receives ip srcIp rreqId) := by
  let heard : U32 → U32 → Prop := fun srcIp rreqId =>
    ∃ input ∈ past, input.Receives ip srcIp rreqId
  have hinv := run_invariant step
    (fun _ input => ∀ srcIp rreqId, input.Receives ip srcIp rreqId → heard srcIp rreqId)
    (fun n => n.ipAddress = ip ∧ n.Entries (IdHeard heard))
    (fun n input hn hheard => ⟨(step_ipAddress n input).trans hn.1,
      idHeard_step heard n input (fun srcIp rreqId h => hheard srcIp rreqId (hn.1 ▸ h)) hn.2⟩)
    (Node.boot ip bcast hello) past
    ⟨rfl, fun i e he => absurd he (Node.boot_slots_ne ip bcast hello i e)⟩
    (allSteps_of_mem step _ past fun input hmem srcIp rreqId h => ⟨input, hmem, h⟩)
  exact hinv.2

/-! ### The duplicate check -/

/-- A request is dropped by a node it is not for when the entry found holds its id. -/
theorem dropped_iff_holds (m : RreqHeader) (n : Node) (hsrc : m.srcIp ≠ n.ipAddress)
    (hdest : m.destIp ≠ n.ipAddress) :
    dropped m n ↔ ∃ e, n.getRoutingEntry m.srcIp = some e ∧ e.rreqId = m.rreqId := by
  constructor
  · exact fun h => dropped_holds m n h hsrc
  · rintro ⟨e, he, hid⟩
    refine Or.inr ?_
    rw [he, Option.any_some]
    exact if_pos ⟨hid, hdest.symm⟩

/-- The reverse route is written exactly for the requests that are not dropped. -/
theorem opsInclude_reverseRoute_iff (env : Env) (s : U32) (m : RreqHeader) (n : Node)
    (hother : s ≠ n.ipAddress) :
    OpsInclude (fun o _ => ∃ new, o = .reverseRoute env s (incrementHopRreq m) new) n
        { env := env, event := .control s (.rreq m) } ↔
      ¬ dropped m (afterPreviousHop env s m.srcIp n) := by
  simp only [OpsInclude, Input.handler, incomingControlMessage, Prog.Performs]
  rw [if_neg hother]
  simp only [recvRreq, previousHopSection, locked, Prog.Performs]
  constructor
  · -- Neither of the operations before the check writes a reverse route.
    rintro (⟨_, hcreate⟩ | ⟨_, hhop⟩ | hrest) hdrop
    · cases hcreate
    · cases hhop
    · rw [← afterPreviousHop] at hrest
      rcases hdrop with hown | hdup
      · rw [if_pos hown] at hrest
        exact hrest
      · rw [if_pos hdup, ite_self] at hrest
        exact hrest
  · intro hnew
    refine Or.inr (Or.inr ?_)
    rw [← afterPreviousHop, if_neg (fun hown => hnew (Or.inl hown)),
      if_neg (fun hdup => hnew (Or.inr hdup))]
    exact Or.inr (Or.inl ⟨_, rfl⟩)

/-! ### First copies -/

/-- The request gets past the duplicate check, its reverse route is written, and the
    originator's entry then holds its id with a timer to forget it. -/
def TakesUp (env : Env) (s : U32) (m : RreqHeader) (n : Node) : Prop :=
  OpsInclude (fun o _ => ∃ new, o = .reverseRoute env s (incrementHopRreq m) new) n
      { env := env, event := .control s (.rreq m) } ∧
    ∃ e, (step n { env := env, event := .control s (.rreq m) }).getRoutingEntry m.srcIp = some e ∧
      e.rreqId = m.rreqId ∧ e.rreqIdThread = true ∧ e.status = .routeValid

/-- An id never assigned is that of the request: in the entry found for the originator, or
    in the block an entry for the previous hop in the same slot is made in. -/
def UnassignedMatches (env : Env) (s : U32) (m : RreqHeader) (n : Node) : Prop :=
  (∃ e, n.getRoutingEntry m.srcIp = some e ∧ e.rreqIdSet = false ∧ e.rreqId = m.rreqId) ∨
    (n.getRoutingEntry m.srcIp = none ∧ slotOf m.srcIp = slotOf s ∧
      wordAt (env.memory (.entry s)) rreqIdWord = m.rreqId)

/-- The entry found for the originator remembers the same id of another one that shares
    the slot. -/
def OtherRemembered (past : List Input) (m : RreqHeader) (n : Node) : Prop :=
  (∃ e, n.getRoutingEntry m.srcIp = some e ∧ e.rreqIdSet = true ∧ e.rreqId = m.rreqId) ∧
    ∃ srcIp, srcIp ≠ m.srcIp ∧ slotOf srcIp = slotOf m.srcIp ∧
      ∃ input ∈ past, input.Receives n.ipAddress srcIp m.rreqId

/-- What a request past the check leaves. -/
theorem takesUp_of_new (env : Env) (s : U32) (m : RreqHeader) (n : Node)
    (hother : s ≠ n.ipAddress) (hnew : ¬ dropped m (afterPreviousHop env s m.srcIp n)) :
    TakesUp env s m n := by
  refine ⟨(opsInclude_reverseRoute_iff env s m n hother).mpr hnew, ?_⟩
  have hsrc : slotOf m.srcIp = slotOf (incrementHopRreq m).srcIp := rfl
  have hentry := recvNewRreq_entry (fun e => (e.rreqId, e.rreqIdThread, e.status))
    (fun _ _ _ _ _ => rfl) env s (incrementHopRreq m) (afterPreviousHop env s m.srcIp n) m.srcIp
  rw [if_pos hsrc, ← recvRreq_new env s m n hnew] at hentry
  rw [step_rreq, if_neg hother]
  rcases Option.map_eq_some_iff.mp hentry with ⟨e, he, hfields⟩
  generalize (afterPreviousHop env s m.srcIp n).isNew (incrementHopRreq m).srcIp = new at hfields
  generalize reverseTarget env s (incrementHopRreq m) (afterPreviousHop env s m.srcIp n) = target
    at hfields
  have hthread : (target.reverseRoute env s (incrementHopRreq m) new).rreqIdThread = true := by
    by_cases htaken : new = true ∨ fresherReverse (incrementHopRreq m) target = true
    · rcases reverseRoute_accepted env s new target _ htaken with ⟨t, ht⟩
      rw [ht]
    · rcases reverseRoute_refused env s new target _ htaken with ⟨t, ht⟩
      rw [ht]
  rw [reverseRoute_rreqId, hthread, (reverseRoute_up env s new target _).1] at hfields
  simp only [Prod.mk.injEq] at hfields
  exact ⟨e, he, hfields⟩

/-- The entry the check looks at holds the id because nobody has assigned it, or because
    it was assigned. -/
theorem dropped_iff_matches (env : Env) (s : U32) (m : RreqHeader) (n : Node)
    (hsrc : m.srcIp ≠ n.ipAddress) (hdest : m.destIp ≠ n.ipAddress) :
    dropped m (afterPreviousHop env s m.srcIp n) ↔
      UnassignedMatches env s m n ∨
        ∃ e, n.getRoutingEntry m.srcIp = some e ∧ e.rreqIdSet = true ∧ e.rreqId = m.rreqId := by
  rw [dropped_iff_holds m _ (by rw [afterPreviousHop_ipAddress]; exact hsrc)
    (by rw [afterPreviousHop_ipAddress]; exact hdest)]
  unfold UnassignedMatches
  cases hfound : n.getRoutingEntry m.srcIp with
  | some e =>
      rcases afterPreviousHop_kept env s m.srcIp n m.srcIp e hfound with ⟨e', he', hsame⟩
      simp only [he', Option.some.injEq, exists_eq_left', reduceCtorEq, false_and, or_false,
        hsame.rreqId]
      cases e.rreqIdSet with
      | false => simp only [true_and, Bool.false_eq_true, false_and, or_false]
      | true => simp only [Bool.true_eq_false, true_and, false_and, false_or]
  | none =>
      simp only [reduceCtorEq, false_and, exists_false, true_and, false_or, or_false]
      rw [afterPreviousHop_getRoutingEntry]
      by_cases hslot : slotOf m.srcIp = slotOf s
      · -- The call has just made the entry, for the previous hop.
        have hmade : n.getRoutingEntry s = none := by
          rw [Node.getRoutingEntry_eq, ← hslot, ← Node.getRoutingEntry_eq]
          exact hfound
        have hid : ((previousHopEntry env s n).previousHop env m.srcIp (n.isNew s)).rreqId =
            wordAt (env.memory (.entry s)) rreqIdWord := by
          rcases previousHop_eq env (n.isNew s) (previousHopEntry env s n) m.srcIp with ⟨t, ht⟩
          rw [ht]
          unfold previousHopEntry
          rw [hmade]
          rfl
        rw [if_pos hslot]
        simp only [Option.some.injEq, exists_eq_left', hid, hslot, true_and]
      · rw [if_neg hslot, hfound]
        simp only [reduceCtorEq, false_and, exists_false, hslot]

/-- After any run, a request from another node that is not for this one and has not been
    received before is taken up exactly when no id that was never assigned is the same,
    and none that is remembered of another originator in the slot. -/
theorem takesUp_iff (ip bcast : U32) (hello : Nat → Byte) (past : List Input) (env : Env) (s : U32)
    (m : RreqHeader) (hother : s ≠ ip) (hsrc : m.srcIp ≠ ip) (hdest : m.destIp ≠ ip)
    (hid : m.rreqId ≠ 0) (hfirst : ∀ input ∈ past, ¬ input.Receives ip m.srcIp m.rreqId) :
    TakesUp env s m (run step (Node.boot ip bcast hello) past) ↔
      ¬ UnassignedMatches env s m (run step (Node.boot ip bcast hello) past) ∧
        ¬ OtherRemembered past m (run step (Node.boot ip bcast hello) past) := by
  have hheard := run_idHeard ip bcast hello past
  have hip : (run step (Node.boot ip bcast hello) past).ipAddress = ip :=
    run_invariant step (fun _ _ => True) (fun n => n.ipAddress = ip)
      (fun n input hn _ => (step_ipAddress n input).trans hn) _ past rfl
      (allSteps_of_forall step (fun _ _ => trivial) _ past)
  generalize run step (Node.boot ip bcast hello) past = n at hheard hip
  subst hip
  have hdropped := dropped_iff_matches env s m n hsrc hdest
  constructor
  · intro htakes
    have hnew := (opsInclude_reverseRoute_iff env s m n hother).mp htakes.1
    exact ⟨fun h => hnew (hdropped.mpr (Or.inl h)), fun h => hnew (hdropped.mpr (Or.inr h.1))⟩
  · rintro ⟨hunassigned, hshared⟩
    refine takesUp_of_new env s m n hother (fun hdrop => ?_)
    rcases (hdropped.mp hdrop).resolve_left hunassigned with ⟨e, he, hset, hsame⟩
    -- The id was assigned, so it was heard; and not of this originator.
    rcases hheard _ e he hset with hzero | ⟨srcIp, hslot, input, hmem, hreceives⟩
    · exact hid (hsame.symm.trans hzero)
    · rw [hsame] at hreceives
      rw [n.routes.keyed _ e he] at hslot
      refine hshared ⟨⟨e, he, hset, hsame⟩, srcIp, ?_, hslot, input, hmem, hreceives⟩
      intro hthis
      exact hfirst input hmem (hthis ▸ hreceives)

/-- A request of 1.0.0.0 for 9.0.0.0. -/
def requestWithId (rreqId : U32) : RreqHeader :=
  { generateRreqMessage (rreqUnknown.setWidth 8) rreqId 0x09000000 0 0x01000000 1 with ttl := 5 }

/-- The second request of an originator is taken up after the first. -/
theorem takesUp_iff_second :
    TakesUp .clear 0x03000000 (requestWithId 2)
      (run step (Node.boot 0x02000000 0xFFFFFFFF fun _ => 0)
        [receive 0x03000000 (.rreq (requestWithId 1))]) := by
  refine (takesUp_iff 0x02000000 0xFFFFFFFF (fun _ => 0)
    [receive 0x03000000 (.rreq (requestWithId 1))] .clear 0x03000000 (requestWithId 2) (by decide)
    (by decide) (by decide) (by decide) ?_).mpr ⟨?_, ?_⟩
  · intro input hmem hreceives
    rcases hreceives with ⟨s, m, hevent, -, -, hid⟩
    rw [List.mem_singleton.mp hmem] at hevent
    cases hevent
    exact absurd hid (by decide)
  · rintro (⟨e, he, hset, -⟩ | ⟨hnone, -⟩)
    · cases he
      exact absurd hset (by decide)
    · exact absurd hnone (by decide)
  · rintro ⟨⟨e, he, -, hid⟩, -⟩
    cases he
    exact absurd hid (by decide)

/-- Surroundings whose memory holds a one in every byte. -/
def Env.ofOnes : Env := { now := { tvSec := 0, tvNsec := 0 }, memory := fun _ _ => 1 }

/-- The first request ever received is dropped when its id is in the block the entry for
    its sender, the originator, is made in. -/
theorem not_takesUp_unassigned :
    ¬ ∀ (ip bcast : U32) (hello : Nat → Byte) (past : List Input) (env : Env) (s : U32)
        (m : RreqHeader), s ≠ ip → m.srcIp ≠ ip → m.destIp ≠ ip → m.rreqId ≠ 0 →
      (∀ input ∈ past, ¬ input.Receives ip m.srcIp m.rreqId) →
      TakesUp env s m (run step (Node.boot ip bcast hello) past) := by
  intro h
  rcases h 0x02000000 0xFFFFFFFF (fun _ => 0) [] .ofOnes 0x01000000 (requestWithId 0x01010101)
    (by decide) (by decide) (by decide) (by decide) nofun with ⟨-, e, he, -, hthread, -⟩
  cases he
  exact absurd hthread (by decide)

end OpenManet
