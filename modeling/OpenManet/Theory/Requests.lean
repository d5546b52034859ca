import OpenManet.Theory.Effect

/-!
# Requests Acted On

A node acts on a route request when it answers it from its table or broadcasts it
again. What keeps it from doing so twice is one word: the `rreq_id` of the
originator's entry, written by every request that gets past the duplicate check.
As long as the entry remembers the id, copies of the request are dropped; what
makes it forget is the timer, the end of the entry, or another request of the
same originator, or of any other in the same slot. The first two end the stretch
of the run `timesActed` counts in. The third is the defect: an originator that sends
several requests in a row, as every expanding ring search does, has only the last
of them remembered.

## Main definitions

* `ActsOn`: A step that acts on a request.
* `timesActed`: How often a stretch of a run acts on a request.
* `Remembers`: The node would drop another copy.
* `EntryStays`: The entry and what it remembers are not given up.
* `IdStays`: No other request takes the place of this one.

## Theorems

* `remembers_of_acts`: Who acts on a request remembers it.
* `not_acts_of_remembers`: Who remembers a request does not act on it.
* `acts_at_most_once`: A stretch acts once at most.
* `not_acts_at_most_once_ring`: Two rings of a search and a late copy of the first.
-/

namespace OpenManet

/-- The packets a node has sent. -/
def Node.packetsSent (n : Node) : Nat :=
  n.log.countP fun c =>
    match c with
    | .sendUnicast _ _ | .sendBroadcast _ => true
    | .addUnicastRoutingEntry _ _ | .deleteEntry _ _ => false

/-- The input is a request with this originator and id, for another node, and the
    node sends something upon it. -/
def ActsOn (srcIp rreqId : U32) (n : Node) (input : Input) : Prop :=
  match input.event with
  | .control _ (.rreq m) =>
    m.srcIp = srcIp ∧ m.rreqId = rreqId ∧ m.destIp ≠ n.ipAddress ∧
      n.packetsSent < (step n input).packetsSent
  | _ => False

instance (srcIp rreqId : U32) (n : Node) (input : Input) :
    Decidable (ActsOn srcIp rreqId n input) := by
  rcases input with ⟨env, event⟩
  cases event with
  | control src message => cases message <;> unfold ActsOn <;> infer_instance
  | _ => unfold ActsOn; infer_instance

/-- How often a stretch of a run acts on a request. -/
def timesActed (srcIp rreqId : U32) : Node → List Input → Nat
  | _, [] => 0
  | n, input :: rest =>
    (if ActsOn srcIp rreqId n input then 1 else 0) + timesActed srcIp rreqId (step n input) rest

/-- The originator's entry holds the id. -/
def Remembers (srcIp rreqId : U32) (n : Node) : Prop :=
  ∃ e, n.getRoutingEntry srcIp = some e ∧ e.rreqId = rreqId

/-- The originator's entry is not removed and its id not forgotten. -/
def EntryStays (srcIp : U32) : Op → Node → Prop
  | .removeEntry ip, _ | .write ip .forgetRreqId, _ => slotOf ip ≠ slotOf srcIp
  | _, _ => True

instance (srcIp : U32) (o : Op) (n : Node) : Decidable (EntryStays srcIp o n) :=
  match o with
  | .removeEntry ip | .write ip .forgetRreqId =>
    inferInstanceAs (Decidable (slotOf ip ≠ slotOf srcIp))
  | .write _ (.timer ..) | .write _ .stopTimer | .write _ (.precursor _) | .write _ .searchNone
  | .create .. | .previousHop .. | .reverseRoute .. | .hello .. | .forwardRoute .. | .searchFound _
  | .activate _ | .breakRoute .. | .linkBreak .. | .outgoingBreak .. | .expireRoute ..
  | .startSearch _ | .beginWait _ | .moveWaiter .. | .moveHello _ | .incrementSequenceNum
  | .writeSequenceNum _ | .sendRreq .. | .searchFailed .. | .sendUnicast ..
  | .sendBroadcast _ => isTrue trivial

/-- No request with another id gets past the duplicate check while the
    originator's entry holds this one. -/
def IdStays (srcIp rreqId : U32) : Op → Node → Prop
  | .reverseRoute _ _ m _, n =>
    slotOf m.srcIp = slotOf srcIp →
      ∀ e, n.getRoutingEntry srcIp = some e → e.rreqId = rreqId → m.rreqId = rreqId
  | _, _ => True

instance (srcIp rreqId : U32) (o : Op) (n : Node) : Decidable (IdStays srcIp rreqId o n) :=
  match o with
  | .reverseRoute _ _ m _ => inferInstanceAs (Decidable (slotOf m.srcIp = slotOf srcIp →
      ∀ e, n.getRoutingEntry srcIp = some e → e.rreqId = rreqId → m.rreqId = rreqId))
  | .create .. | .previousHop .. | .hello .. | .forwardRoute .. | .searchFound _ | .activate _
  | .breakRoute .. | .linkBreak .. | .outgoingBreak .. | .expireRoute .. | .removeEntry _
  | .write .. | .startSearch _ | .beginWait _ | .moveWaiter .. | .moveHello _
  | .incrementSequenceNum | .writeSequenceNum _ | .sendRreq .. | .searchFailed ..
  | .sendUnicast .. | .sendBroadcast _ =>
    isTrue trivial

/-! ### What an operation does to the id -/

theorem reverseRoute_rreqId (env : Env) (s : U32) (m : RreqHeader) (new : Bool)
    (e : RoutingEntry) : (e.reverseRoute env s m new).rreqId = m.rreqId := by
  by_cases hm : new = true ∨ fresherReverse m e = true
  · rcases reverseRoute_accepted env s new e m hm with ⟨t, ht⟩
    rw [ht]
  · rcases reverseRoute_refused env s new e m hm with ⟨t, ht⟩
    rw [ht]

/-- The writes other than the reverse route and the timer's leave the id. -/
def Op.KeepsRreqId : Op → Prop
  | reverseRoute _ _ _ _ | write _ .forgetRreqId | removeEntry _ => False
  | _ => True

theorem effect_id (n : Node) (o : Op) (hkeeps : o.KeepsRreqId) (ip : U32)
    (f : RoutingEntry → RoutingEntry) (heff : o.effect n = .update ip f) (e : RoutingEntry) :
    (f e).rreqId = e.rreqId ∧ (f e).rreqIdSet = e.rreqIdSet := by
  cases o with
  | previousHop env s l new =>
      cases heff
      rcases previousHop_eq env new e l with ⟨t, ht⟩
      rw [ht]
      exact ⟨rfl, rfl⟩
  | hello env m new =>
      cases heff
      by_cases hm : takesHello m new e
      · rcases hello_accepted env new e m hm with ⟨t, ht⟩
        rw [ht]
        exact ⟨rfl, rfl⟩
      · rw [hello_refused env new e m hm]
        exact ⟨rfl, rfl⟩
  | forwardRoute env s m new =>
      cases heff
      by_cases hm : new = true ∨ fresherForward m e = true
      · rcases forwardRoute_accepted env s new e m hm with ⟨t, ht⟩
        rw [ht]
        exact ⟨rfl, rfl⟩
      · rcases forwardRoute_refused env s new e m hm with ⟨t, ht⟩
        rw [ht]
        exact ⟨rfl, rfl⟩
  | activate ip =>
      cases heff
      rw [activate_eq]
      exact ⟨rfl, rfl⟩
  | write ip w =>
      cases heff
      cases w with
      -- The timer of the id forgets it, which the condition leaves out.
      | forgetRreqId => exact absurd hkeeps id
      | timer | stopTimer | precursor | searchNone => exact ⟨rfl, rfl⟩
  | reverseRoute => exact absurd hkeeps id
  | searchFound | breakRoute | linkBreak | outgoingBreak | expireRoute | startSearch
  | searchFailed =>
      cases heff
      exact ⟨rfl, rfl⟩
  | create | removeEntry | beginWait | moveWaiter | moveHello | incrementSequenceNum
  | writeSequenceNum | sendRreq | sendUnicast | sendBroadcast => cases heff

theorem effect_rreqId (n : Node) (o : Op) (hkeeps : o.KeepsRreqId) (ip : U32)
    (f : RoutingEntry → RoutingEntry) (heff : o.effect n = .update ip f) (e : RoutingEntry) :
    (f e).rreqId = e.rreqId := (effect_id n o hkeeps ip f heff e).1

/-- Writes elsewhere, and writes that leave the id, leave it remembered. -/
theorem remembers_apply (srcIp rreqId : U32) (o : Op) (n : Node)
    (hupdate : ∀ ip f, o.effect n = .update ip f → slotOf ip = slotOf srcIp →
      ∀ e, n.getRoutingEntry srcIp = some e → (f e).rreqId = e.rreqId ∨ (f e).rreqId = rreqId)
    (hremove : ∀ ip, o.effect n = .remove ip → slotOf ip ≠ slotOf srcIp)
    (h : Remembers srcIp rreqId n) : Remembers srcIp rreqId (o.apply n) := by
  rcases h with ⟨e, he, hid⟩
  rcases entry_fate n o _ e he (fun ip heff => (hremove ip heff).symm) with
    hsame | ⟨ip, f, heff, hslot, hwritten⟩
  · exact ⟨e, hsame, hid⟩
  · rcases hupdate ip f heff hslot.symm e he with hkept | hthis
    · exact ⟨f e, hwritten, hkept.trans hid⟩
    · exact ⟨f e, hwritten, hthis⟩

/-- What is remembered stays so under the two conditions. -/
theorem remembers_stays (srcIp rreqId : U32) (o : Op) (n : Node)
    (h : Remembers srcIp rreqId n) (hentry : EntryStays srcIp o n)
    (hother : IdStays srcIp rreqId o n) : Remembers srcIp rreqId (o.apply n) := by
  refine remembers_apply srcIp rreqId o n (fun ip f heff hslot e he => ?_) (fun ip heff => ?_) h
  · rcases h with ⟨e', he', hid⟩
    rw [he, Option.some.injEq] at he'
    subst he'
    -- Only a reverse route writes an id, and only the timer takes one away.
    by_cases hkeeps : o.KeepsRreqId
    · exact Or.inl (effect_rreqId n o hkeeps ip f heff e)
    · cases o with
      | reverseRoute env s m new =>
          cases heff
          exact Or.inr ((reverseRoute_rreqId env s m new e).trans (hother hslot e he hid))
      | write ip' w =>
          cases heff
          cases w with
          | forgetRreqId => exact absurd hslot hentry
          | timer | stopTimer | precursor | searchNone => exact absurd trivial hkeeps
      | removeEntry => cases heff
      | _ => exact absurd trivial hkeeps
  · cases o with
    | removeEntry ip' =>
        cases heff
        exact hentry
    | _ => cases heff

/-! ### The handler of requests -/

/-- What follows the reverse route leaves every id. -/
theorem keepsRreqId_of_follows (o : Op) (h : o.FollowsRoute) : o.KeepsRreqId := by
  cases o with
  | write ip w =>
      cases w with
      | precursor p => trivial
      | _ => exact absurd h id
  | activate | writeSequenceNum | sendUnicast | sendBroadcast => trivial
  | _ => exact absurd h id

/-- A request past the duplicate check is remembered. -/
theorem recvNewRreq_remembers (env : Env) (s : U32) (m : RreqHeader) (n : Node) :
    Remembers m.srcIp m.rreqId ((recvNewRreq env s m).exec Op.apply n).1 := by
  simp only [recvNewRreq, Prog.exec]
  -- The reverse route notes the id; what follows the section leaves it alone.
  refine Prog.exec_invariant Op.apply (fun o _ => o.KeepsRreqId) (Remembers m.srcIp m.rreqId)
    (fun o n h hkeeps => ?_) _ _ ?_
    (Prog.Meets.imp (fun o _ => keepsRreqId_of_follows o) _ _
      (afterReverseRoute_follows env s m _ _))
  · refine remembers_apply _ _ o n (fun ip f heff _ e _ => ?_) (fun ip heff => ?_) h
    · exact Or.inl (effect_rreqId n o hkeeps ip f heff e)
    · cases o with
      | removeEntry => exact absurd hkeeps id
      | _ => cases heff
  · rcases Node.createOrGet_found env m.srcIp m.srcSeq .seqValid s (m.hopCount.setWidth 32) 0 n with
        ⟨e, he⟩
    refine ⟨_, ?_, reverseRoute_rreqId env s m (n.isNew m.srcIp) e⟩
    rw [Node.getRoutingEntry_eq, apply_slots, ← Node.getRoutingEntry_eq]
    rw [show (Op.create env m.srcIp m.srcSeq .seqValid s (m.hopCount.setWidth 32) 0).apply n =
      n.createOrGetRoutingEntry env m.srcIp m.srcSeq .seqValid s (m.hopCount.setWidth 32) 0
        from rfl,
      he]
    simp only [Op.effect, Effect.slot, if_true, Option.map_some]

/-- The previous-hop section sends nothing. -/
theorem afterPreviousHop_packetsSent (env : Env) (s l : U32) (n : Node) :
    (afterPreviousHop env s l n).packetsSent = n.packetsSent := by
  unfold Node.packetsSent
  rw [afterPreviousHop_log]
  rfl

/-- The request is one the node drops after the previous-hop section. -/
def dropped (m : RreqHeader) (n : Node) : Prop :=
  m.srcIp = n.ipAddress ∨ (n.getRoutingEntry m.srcIp).any (isDuplicate n.ipAddress m) = true

/-- Another originator's request is dropped for an entry that holds its id. -/
theorem dropped_holds (m : RreqHeader) (n : Node) (h : dropped m n)
    (hsrc : m.srcIp ≠ n.ipAddress) :
    ∃ e, n.getRoutingEntry m.srcIp = some e ∧ e.rreqId = m.rreqId := by
  rcases (Option.any_eq_true _ _).mp (h.resolve_left hsrc) with ⟨e, he, hdup⟩
  refine ⟨e, he, ?_⟩
  -- Both forms of the check begin with the id.
  unfold isDuplicate at hdup
  split at hdup
  · rename_i hid
    exact hid.1
  · split at hdup
    · rename_i hid
      exact hid.1
    · exact absurd hdup Bool.false_ne_true

theorem recvRreq_dropped (env : Env) (s : U32) (m : RreqHeader) (n : Node)
    (h : dropped m (afterPreviousHop env s m.srcIp n)) :
    ((recvRreq env s m).exec Op.apply n).1 = afterPreviousHop env s m.srcIp n := by
  simp only [recvRreq, previousHopSection, locked, Prog.exec]
  rw [← afterPreviousHop]
  by_cases hown : m.srcIp = (afterPreviousHop env s m.srcIp n).ipAddress
  · rw [if_pos hown]
    rfl
  · rw [if_neg hown, if_pos (h.resolve_left hown)]
    rfl

theorem recvRreq_new (env : Env) (s : U32) (m : RreqHeader) (n : Node)
    (h : ¬ dropped m (afterPreviousHop env s m.srcIp n)) :
    (recvRreq env s m).exec Op.apply n =
      (recvNewRreq env s (incrementHopRreq m)).exec Op.apply
        (afterPreviousHop env s m.srcIp n) := by
  simp only [recvRreq, previousHopSection, locked, Prog.exec]
  rw [← afterPreviousHop, if_neg (fun hown => h (Or.inl hown)),
    if_neg (fun hdup => h (Or.inr hdup))]

/-- Who acts on a request has it pass the two tests. -/
theorem actsOn_passes (srcIp rreqId : U32) (n : Node) (input : Input)
    (h : ActsOn srcIp rreqId n input) :
    ∃ s m, m.srcIp = srcIp ∧ m.rreqId = rreqId ∧ m.destIp ≠ n.ipAddress ∧
      ¬ dropped m (afterPreviousHop input.env s m.srcIp n) ∧
      step n input = ((recvNewRreq input.env s (incrementHopRreq m)).exec Op.apply
        (afterPreviousHop input.env s m.srcIp n)).1 := by
  rcases input with ⟨env, event⟩
  cases event with
  | control s message =>
      cases message with
      | rreq m =>
          rcases h with ⟨hsrc, hid, hdest, hsent⟩
          have hstep := step_rreq n env s m
          rw [hstep] at hsent
          -- It acted, so neither check of the handler has dropped the request.
          have hother : s ≠ n.ipAddress := by
            intro hself
            rw [if_pos hself] at hsent
            exact absurd hsent (Nat.lt_irrefl _)
          rw [if_neg hother] at hsent hstep
          have hnew : ¬ dropped m (afterPreviousHop env s m.srcIp n) := by
            intro hdrop
            rw [recvRreq_dropped env s m n hdrop, afterPreviousHop_packetsSent] at hsent
            exact absurd hsent (Nat.lt_irrefl _)
          rw [recvRreq_new env s m n hnew] at hstep
          exact ⟨s, m, hsrc, hid, hdest, hnew, hstep⟩
      | rrep | rerr => exact absurd h id
  | _ => exact absurd h id

theorem remembers_of_acts (srcIp rreqId : U32) (n : Node) (input : Input)
    (h : ActsOn srcIp rreqId n input) : Remembers srcIp rreqId (step n input) := by
  rcases actsOn_passes srcIp rreqId n input h with ⟨s, m, rfl, rfl, -, -, hstep⟩
  rw [hstep]
  exact recvNewRreq_remembers input.env s (incrementHopRreq m) _

theorem not_acts_of_remembers (srcIp rreqId : U32) (n : Node) (input : Input)
    (h : Remembers srcIp rreqId n) : ¬ ActsOn srcIp rreqId n input := by
  intro hacts
  rcases actsOn_passes srcIp rreqId n input hacts with ⟨s, m, rfl, rfl, hdest, hnew, -⟩
  have hkept : Remembers m.srcIp m.rreqId (afterPreviousHop input.env s m.srcIp n) :=
    remembers_stays _ _ _ _ (remembers_stays _ _ _ _ h trivial trivial) trivial trivial
  rcases hkept with ⟨e, he, hid⟩
  refine hnew (Or.inr ?_)
  rw [he, Option.any_some, afterPreviousHop_ipAddress]
  exact if_pos ⟨hid, hdest.symm⟩

/-! ### A stretch of a run -/

/-- A step keeps what is remembered. -/
theorem step_remembers (srcIp rreqId : U32) (n : Node) (input : Input)
    (hentry : OpsMeet (EntryStays srcIp) n input) (hid : OpsMeet (IdStays srcIp rreqId) n input)
    (h : Remembers srcIp rreqId n) : Remembers srcIp rreqId (step n input) :=
  Prog.exec_invariant Op.apply _ (Remembers srcIp rreqId)
    (fun o n h hok => remembers_stays srcIp rreqId o n h hok.1 hok.2) input.handler n h
    (Prog.Meets.and input.handler n hentry hid)

/-- Once remembered, a request is not acted on for the rest of the stretch. -/
theorem timesActed_of_remembers (srcIp rreqId : U32) (n : Node) (stretch : List Input)
    (hentry : AllSteps step (OpsMeet (EntryStays srcIp)) n stretch)
    (hid : AllSteps step (OpsMeet (IdStays srcIp rreqId)) n stretch)
    (h : Remembers srcIp rreqId n) : timesActed srcIp rreqId n stretch = 0 := by
  induction stretch generalizing n with
  | nil => rfl
  | cons input rest ih =>
      simp only [timesActed, if_neg (not_acts_of_remembers srcIp rreqId n input h), Nat.zero_add]
      exact ih _ hentry.2 hid.2 (step_remembers srcIp rreqId n input hentry.1 hid.1 h)

/-- In a stretch of a run in which the originator's entry stays and its id is not
    forgotten, and in which no other request takes the id's place, a request is
    acted on once at most. The stretch may begin in any state. -/
theorem acts_at_most_once (srcIp rreqId : U32) (n : Node) (stretch : List Input)
    (hentry : AllSteps step (OpsMeet (EntryStays srcIp)) n stretch)
    (hid : AllSteps step (OpsMeet (IdStays srcIp rreqId)) n stretch) :
    timesActed srcIp rreqId n stretch ≤ 1 := by
  induction stretch generalizing n with
  | nil => exact Nat.zero_le 1
  | cons input rest ih =>
      simp only [timesActed]
      by_cases hacts : ActsOn srcIp rreqId n input
      · rw [if_pos hacts, timesActed_of_remembers srcIp rreqId _ rest hentry.2 hid.2
          (remembers_of_acts srcIp rreqId n input hacts)]
      · rw [if_neg hacts, Nat.zero_add]
        exact ih _ hentry.2 hid.2

/-- Two copies of a request, the second by a longer way. -/
def requestTwice : List Input :=
  [receive 0x02000000 (requestFor 7 5 0x04000000 0x03000000 1),
    receive 0x05000000 (requestFor 6 5 0x04000000 0x03000000 1)]

theorem acts_at_most_once_twice :
    timesActed 0x03000000 5 (Node.boot 0x01000000 0xFF000000 fun _ => 0) requestTwice ≤ 1 :=
  acts_at_most_once 0x03000000 5 _ requestTwice (by decide) (by decide)

/-- Two rings of one search, and a copy of the first that comes after the second. -/
def ringThenLateCopy : List Input :=
  [receive 0x02000000 (requestFor 2 5 0x04000000 0x03000000 1),
    receive 0x02000000 (requestFor 4 6 0x04000000 0x03000000 1),
    receive 0x05000000 (requestFor 2 5 0x04000000 0x03000000 1)]

/-- The entry stays and its timer does not fire, and yet the first request is
    broadcast twice. -/
theorem not_acts_at_most_once_ring :
    ¬ ∀ (srcIp rreqId : U32) (ip bcast : U32) (hello : Nat → Byte) (past stretch : List Input),
      AllSteps step (OpsMeet (EntryStays srcIp)) (run step (Node.boot ip bcast hello) past)
        stretch →
      timesActed srcIp rreqId (run step (Node.boot ip bcast hello) past) stretch ≤ 1 := by
  intro hall
  have hone := hall 0x03000000 5 0x01000000 0xFF000000 (fun _ => 0) [] ringThenLateCopy (by decide)
  have htwo : timesActed 0x03000000 5 (Node.boot 0x01000000 0xFF000000 fun _ => 0)
      ringThenLateCopy = 2 := by decide
  rw [run_nil, htwo] at hone
  exact absurd hone (by decide)

end OpenManet
