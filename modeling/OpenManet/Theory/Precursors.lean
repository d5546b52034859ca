import OpenManet.Theory.RouteErrors

/-!
# Who Is Told of a Broken Route

Whoever is given a route is entered as a precursor of the entry before the reply is
sent, and nothing takes a precursor from a list again: not an update, not a break, not
a revival. As long as the entry is in the table, then, its list has everybody in it
who was told about its destination.

When `recv_rerr` breaks the route it takes the destination into the RERR because the
list is not empty. Where the RERR goes is decided over all destinations taken in: to
the one precursor there is, or to everybody. `RerrLocals.Tells` is what has to hold of
the locals from the moment the destination is taken in, and `tells_collect` that the
destinations after it do not undo it. The zero that stands for no precursor yet does
no harm to a precursor that is not zero.

## Main definitions

* `TellsAbout`: The node unicasts a reply about a destination.
* `NotRemoved`: The entry of an address stays.
* `HasPrecursor`: The entry of an address has a precursor.
* `ApiCall.Reports`: A RERR about a destination that reaches a neighbour.
* `RerrLocals.Tells`: The destination is taken in and the neighbour will hear of it.

## Theorems

* `hasPrecursor_step`, `hasPrecursor_of_tells`: Precursors come and stay.
* `rerrLoop_reports`: The RERR that breaks the route reports it.
* `error_reaches_precursor`: Route errors reach everyone who was given the route.
-/

namespace OpenManet

/-! ### Precursors stay -/

/-- Whatever is written to an entry, its precursors stay. -/
theorem effect_precursorList (n : Node) (o : Op) (ip : U32) (f : RoutingEntry → RoutingEntry)
    (heff : o.effect n = .update ip f) (e : RoutingEntry) (p : U32) (hp : p ∈ e.precursorList) :
    p ∈ (f e).precursorList := by
  cases o with
  | previousHop env s l new =>
      cases heff
      rcases previousHop_eq env new e l with ⟨t, ht⟩
      rw [ht]
      exact hp
  | reverseRoute | hello | forwardRoute =>
      rw [(effect_frame n _ ip f heff trivial e).precursorList]
      exact hp
  | activate ip =>
      cases heff
      rw [activate_eq]
      exact hp
  | write ip w =>
      cases heff
      cases w with
      -- The list only grows, at its end.
      | precursor q => exact List.mem_append_left _ hp
      | timer | stopTimer | searchNone | forgetRreqId => exact hp
  | searchFound | breakRoute | linkBreak | outgoingBreak | expireRoute | startSearch
  | searchFailed =>
      cases heff
      exact hp
  | create | removeEntry | beginWait | moveWaiter | moveHello | incrementSequenceNum
  | writeSequenceNum | sendRreq | sendUnicast | sendBroadcast => cases heff

/-- The table has an entry for exactly this address, and the neighbour is one of its
    precursors. -/
def HasPrecursor (d p : U32) (n : Node) : Prop :=
  ∃ e, n.getRoutingEntry d = some e ∧ e.destIp = d ∧ p ∈ e.precursorList

/-- The operation does not remove the entry of the address. -/
def NotRemoved (d : U32) : Op → Node → Prop
  | .removeEntry ip, _ => slotOf ip ≠ slotOf d
  | _, _ => True

theorem hasPrecursor_apply (d p : U32) (o : Op) (n : Node) (h : HasPrecursor d p n)
    (hstays : NotRemoved d o n) : HasPrecursor d p (o.apply n) := by
  rcases h with ⟨e, he, hd, hp⟩
  rw [Node.getRoutingEntry_eq] at he
  have hkept : ∀ ip, o.effect n = .remove ip → slotOf d ≠ slotOf ip := by
    intro ip heff hslot
    cases o with
    | removeEntry ip' =>
        cases heff
        exact hstays hslot.symm
    | _ => cases heff
  rcases entry_fate n o _ e he hkept with hsame | ⟨ip, f, heff, -, hwritten⟩
  · exact ⟨e, hsame, hd, hp⟩
  · refine ⟨f e, hwritten, ?_, effect_precursorList n o ip f heff e p hp⟩
    rw [effect_keeps n o ip f heff e]
    exact hd

theorem hasPrecursor_step (d p : U32) (n : Node) (input : Input) (h : HasPrecursor d p n)
    (hstays : OpsMeet (NotRemoved d) n input) : HasPrecursor d p (step n input) :=
  Prog.exec_invariant Op.apply (NotRemoved d) (HasPrecursor d p)
    (fun o n hn ho => hasPrecursor_apply d p o n hn ho) input.handler n h hstays

/-- A reply about the destination is unicast to the neighbour while there is an entry
    for exactly this destination. -/
def SendsReply (d p : U32) : Op → Node → Prop
  | .sendUnicast dest (.rrep rrep _), n =>
    dest = p ∧ rrep.destIp = d ∧ (n.getRoutingEntry d).any (fun e => e.destIp = d) = true
  | _, _ => False

instance (d p : U32) (o : Op) (n : Node) : Decidable (SendsReply d p o n) := by
  unfold SendsReply
  split <;> infer_instance

/-- The operation that sends a reply. -/
theorem sendsReply_eq {d p : U32} {o : Op} {n : Node} (h : SendsReply d p o n) :
    ∃ rrep beyond e, o = .sendUnicast p (.rrep rrep beyond) ∧ rrep.destIp = d ∧
      n.getRoutingEntry d = some e ∧ e.destIp = d := by
  unfold SendsReply at h
  split at h
  · rcases h with ⟨rfl, hd, hfound⟩
    rcases Option.any_eq_true _ _ |>.mp hfound with ⟨e, he, hdest⟩
    exact ⟨_, _, e, rfl, hd, he, of_decide_eq_true hdest⟩
  · exact absurd h id

/-- In this step the node unicasts a reply about the destination to the neighbour: as
    one it passes on, or upon a request for another node as its answer or as the
    gratuitous reply. -/
structure TellsAbout (d p : U32) (n : Node) (input : Input) : Prop where
  other : ∀ s m, input.event = .control s (.rreq m) → m.destIp ≠ n.ipAddress
  sends : OpsInclude (SendsReply d p) n input

/-- Who is sent a reply is a precursor by then. -/
theorem hasPrecursor_of_sends (d p : U32) (event : Event) (o : Op) (n : Node)
    (hother : ∀ s m, event = .control s (.rreq m) → m.destIp ≠ n.ipAddress)
    (hsends : SendsReply d p o n) (hguard : o.Guard event n) : HasPrecursor d p (o.apply n) := by
  rcases sendsReply_eq hsends with ⟨rrep, beyond, e, rfl, hd, he, hdest⟩
  have hp : p ∈ e.precursorList := by
    generalize hpacket : Packet.rrep rrep beyond = packet at hguard
    -- Every reply sent is preceded by the note of the neighbour it goes to.
    cases hguard with
    | ownReply env m hevent hown => exact absurd hown (hother p m hevent)
    | tableReply env m e' hevent hnot hfound hanswers hprecursor =>
        cases hpacket
        rw [← hd] at he
        cases hfound.symm.trans he
        exact hprecursor
    | gratuitousReply env s m hevent hnot hprecursor =>
        cases hpacket
        rw [← hd] at he
        exact hprecursor e he
    | passedOn s m hevent hasked hprecursor =>
        cases hpacket
        rw [← hd] at he
        exact hprecursor e he
    | error | noError | timing => exact absurd hpacket nofun
  exact ⟨e, he, hdest, hp⟩

/-- Replies are sent upon messages only. -/
theorem control_of_sends (d p : U32) (event : Event) (o : Op) (n : Node)
    (hsends : SendsReply d p o n) (hguard : o.Guard event n) :
    ∃ s message, event = .control s message := by
  rcases sendsReply_eq hsends with ⟨rrep, beyond, -, rfl, -⟩
  generalize hpacket : Packet.rrep rrep beyond = packet at hguard
  cases hguard with
  | ownReply env m hevent | tableReply env m e hevent | gratuitousReply env s m hevent
  | passedOn s m hevent => exact ⟨_, _, hevent⟩
  | error | noError | timing => exact absurd hpacket nofun

theorem hasPrecursor_of_tells (d p : U32) (n : Node) (input : Input) (h : TellsAbout d p n input) :
    HasPrecursor d p (step n input) := by
  have hguarded := Prog.Meets.with_invariant (fun n' => n'.ipAddress = n.ipAddress)
    (fun o n' hn' _ => (apply_ipAddress n' o).trans hn') input.handler n rfl
    (handler_guard n input)
  rcases Prog.exists_of_performs input.handler n h.sends hguarded with ⟨o, n', hsends, hguard, -⟩
  -- Replies are sent upon messages only, and those remove no entry.
  rcases control_of_sends d p input.event o n' hsends hguard with ⟨s, message, hevent⟩
  refine Prog.exec_of_performs Op.apply (SendsReply d p) _ (HasPrecursor d p) ?_ ?_ input.handler n
    h.sends hguarded
  · rintro o n' hsends ⟨hguard, haddress⟩
    refine hasPrecursor_of_sends d p input.event o n' (fun s m hevent => ?_) hsends hguard
    rw [haddress]
    exact h.other s m hevent
  · rintro o n' hn' ⟨hguard, -⟩
    refine hasPrecursor_apply d p o n' hn' ?_
    cases o with
    | removeEntry ip => exact absurd (hevent.symm.trans hguard.1) nofun
    | _ => trivial

/-! ### The RERR that breaks the route -/

/-- The pairs of a RERR name the destination. -/
def NamesDest (d : U32) (header : RerrHeader) (words : List U32) : Prop :=
  ∃ q ∈ rerrPairs header.destCount (fun i => words.getD i 0), q.1 = d

/-- The call sends a RERR that names the destination, to everybody or to the
    neighbour. -/
def ApiCall.Reports (d p : U32) : ApiCall → Prop
  | sendBroadcast (.rerr header words) => NamesDest d header words
  | sendUnicast dest (.rerr header words) => dest = p ∧ NamesDest d header words
  | _ => False

/-- The RERR goes to the neighbour or to everybody. -/
def RerrTarget.Reaches (p : U32) (target : RerrTarget) : Prop :=
  target.broadcastRerr = true ∨ target.singleRerr = p

/-- The destination is among the pairs collected. -/
def RerrLocals.Holds (d : U32) (l : RerrLocals) : Prop :=
  ∃ i, 2 * i + 2 ≤ l.numDests.toNat ∧ l.pairs (2 * i) = d

/-- The destination is taken in and the neighbour will hear of it. -/
structure RerrLocals.Tells (d p : U32) (l : RerrLocals) : Prop where
  holds : l.Holds d
  reaches : l.target.Reaches p

/-- So many more pairs fit: the count is even and does not wrap. -/
structure RerrLocals.Fits (more : Nat) (l : RerrLocals) : Prop where
  even : l.numDests.toNat % 2 = 0
  bound : l.numDests.toNat + 2 * more ≤ 254

theorem reaches_add (p : U32) (hp : p ≠ 0) (target : RerrTarget) (precursors : List U32)
    (h : target.Reaches p) : (target.add precursors).Reaches p := by
  unfold RerrTarget.add
  split
  · split
    · rename_i single hnone
      -- The neighbour is not zero, so it is no neighbour only if all are told.
      rcases h with hall | hone
      · exact Or.inl hall
      · exact absurd (hone.symm.trans hnone) hp
    · exact Or.inl rfl
  · exact Or.inl rfl

/-- Taking in a destination with this precursor makes the RERR reach it. -/
theorem reaches_of_add (p : U32) (target : RerrTarget) (precursors : List U32)
    (h : p ∈ precursors) : (target.add precursors).Reaches p := by
  unfold RerrTarget.add
  split
  · rename_i single
    split
    · exact Or.inr (List.mem_singleton.mp h).symm
    · exact Or.inl rfl
  · exact Or.inl rfl

theorem two_toNat : (2 : Byte).toNat = 2 := rfl

theorem fits_skip (l : RerrLocals) (more : Nat) (h : l.Fits (more + 1)) : l.Fits more := by
  have hbound := h.bound
  exact ⟨h.even, by omega⟩

/-- One pair less fits after one is collected or not. -/
theorem fits_collect (l : RerrLocals) (e : RoutingEntry) (destSeq : U32) (more : Nat)
    (h : l.Fits (more + 1)) : (l.collect e destSeq).Fits more := by
  have heven := h.even
  have hbound := h.bound
  unfold RerrLocals.collect
  split
  · have hcount : (l.numDests + 2).toNat = l.numDests.toNat + 2 := by
      rw [BitVec.toNat_add, two_toNat]
      omega
    exact ⟨by rw [hcount]; omega, by rw [hcount]; omega⟩
  · exact ⟨heven, by omega⟩

/-- What is collected later overwrites no pair and takes nobody from those told. -/
theorem tells_collect (d p : U32) (hp : p ≠ 0) (l : RerrLocals) (e : RoutingEntry) (destSeq : U32)
    (more : Nat) (hfits : l.Fits (more + 1)) (h : l.Tells d p) :
    (l.collect e destSeq).Tells d p := by
  have hbound := hfits.bound
  unfold RerrLocals.collect
  split
  · refine ⟨?_, reaches_add p hp l.target e.precursorList h.reaches⟩
    rcases h.holds with ⟨i, hi, hd⟩
    refine ⟨i, ?_, ?_⟩
    · rw [BitVec.toNat_add, two_toNat]
      omega
    · simp only [writePair]
      rw [if_neg (by omega), if_neg (by omega)]
      exact hd
  · exact h

/-- Taking in the destination itself. -/
theorem tells_of_collect (d p : U32) (l : RerrLocals) (e : RoutingEntry) (destSeq : U32)
    (more : Nat) (hfits : l.Fits (more + 1)) (hd : e.destIp = d) (hp : p ∈ e.precursorList) :
    (l.collect e destSeq).Tells d p := by
  have heven := hfits.even
  have hbound := hfits.bound
  have hsome : e.precursorList ≠ [] := List.ne_nil_of_mem hp
  unfold RerrLocals.collect
  rw [if_pos hsome]
  refine ⟨⟨l.numDests.toNat / 2, ?_, ?_⟩, reaches_of_add p l.target e.precursorList hp⟩
  · rw [BitVec.toNat_add, two_toNat]
    omega
  · simp only [writePair]
    rw [if_pos (by omega)]
    exact hd

/-- The packet names what has been collected. -/
theorem packet_names (d : U32) (l : RerrLocals) (h : l.Holds d) :
    ∃ header words, l.packet = .rerr header words ∧ NamesDest d header words := by
  rcases h with ⟨i, hi, hd⟩
  have hlt := l.numDests.isLt
  have hhalf : (l.numDests / 2).toNat = l.numDests.toNat / 2 := by
    rw [BitVec.toNat_udiv, two_toNat]
  have hne : l.numDests / 2 ≠ 0 := by
    intro hzero
    have hz : (l.numDests / 2).toNat = 0 := by
      rw [hzero]
      rfl
    omega
  refine ⟨_, _, by rw [RerrLocals.packet, generateRerrMessageBuff, if_neg hne], ?_⟩
  refine ⟨(d, l.pairs (2 * i + 1)), ?_, rfl⟩
  simp only [rerrPairs, rerrHeader, List.mem_map, List.mem_range]
  refine ⟨i, by omega, ?_⟩
  -- The words of the message are the pairs collected, as far as they reach.
  have hword : ∀ j, j < 2 * (l.numDests / 2).toNat →
      ((List.range (2 * (l.numDests / 2).toNat)).map l.pairs).getD j 0 = l.pairs j := by
    intro j hj
    rw [List.getD_eq_getElem?_getD, List.getElem?_map, List.getElem?_range hj]
    rfl
  rw [hword (2 * i) (by omega), hword (2 * i + 1) (by omega), hd]

/-- The send at the end reaches the neighbour. -/
theorem send_reports (d p : U32) (l : RerrLocals) (h : l.Tells d p) (n : Node) :
    ∃ c, (l.target.send l.packet).calls n = [c] ∧ c.Reports d p := by
  rcases packet_names d l h.holds with ⟨header, words, hpacket, hnames⟩
  unfold RerrTarget.send
  rw [hpacket]
  by_cases hsingle : l.target.singleRerr ≠ 0 ∧ l.target.broadcastRerr = false
  · rw [if_pos hsingle]
    refine ⟨_, rfl, ?_, hnames⟩
    rcases h.reaches with hall | hone
    · exact absurd (hsingle.2.symm.trans hall) Bool.false_ne_true
    · exact hone
  · rw [if_neg hsingle]
    exact ⟨_, rfl, hnames⟩

/-- The handler ends with a record that goes on from this one with a report. -/
def ReportsAfter (d p : U32) (n n' : Node) : Prop :=
  ∃ calls, n'.log = calls ++ n.log ∧ ∃ c ∈ calls, c.Reports d p

theorem reportsAfter_apply (d p : U32) (o : Op) (n n' : Node)
    (h : ReportsAfter d p (o.apply n) n') :
    ReportsAfter d p n n' := by
  rcases h with ⟨calls, hcalls, c, hc, hreports⟩
  refine ⟨calls ++ o.calls n, ?_, c, List.mem_append_left _ hc, hreports⟩
  rw [hcalls, apply_log, List.append_assoc]

/-- With the destination taken in, the loop ends with a report. -/
theorem rerrLoop_tells (env : Env) (s d p : U32) (hp : p ≠ 0) (pairs : List (U32 × U32))
    (l : RerrLocals) (n : Node) (hfits : l.Fits pairs.length) (h : l.Tells d p) :
    ReportsAfter d p n ((rerrLoop env s pairs l).exec Op.apply n).1 := by
  -- What is collected so far stays in the message, and there is room for the rest.
  induction pairs generalizing l n with
  | nil =>
      unfold rerrLoop
      rcases h.holds with ⟨i, hi, -⟩
      have hsome : l.numDests ≠ 0 := by
        intro hzero
        rw [hzero] at hi
        exact absurd hi (Nat.not_succ_le_zero _)
      rcases send_reports d p l h n with ⟨c, hcalls, hreports⟩
      rw [if_neg hsome]
      refine ⟨[c], ?_, c, List.mem_singleton_self c, hreports⟩
      simp only [Prog.exec, acceptPacket]
      rw [apply_log, hcalls]
  | cons pair rest ih =>
      have hskip : l.Fits rest.length := fits_skip l rest.length hfits
      simp only [rerrLoop, Prog.exec]
      cases he : n.getRoutingEntry pair.1 with
      | none => exact ih l n hskip h
      | some e =>
          by_cases hthrough : e.goesThrough s = true
          · simp only [if_pos hthrough, Prog.exec, he]
            exact reportsAfter_apply d p (.breakRoute env pair.1 pair.2) n _
              (ih _ _ (fits_collect l e pair.2 rest.length hfits)
                (tells_collect d p hp l e pair.2 rest.length hfits h))
          · simp only [if_neg hthrough]
            exact ih l n hskip h

/-- The entry of the address is valid. -/
def ValidAt (d : U32) (n : Node) : Prop :=
  ∃ e, n.getRoutingEntry d = some e ∧ e.status = .routeValid

/-- If the loop makes the entry of the destination invalid, it ends with a report. -/
theorem rerrLoop_reports (env : Env) (s d p : U32) (hp : p ≠ 0) (pairs : List (U32 × U32))
    (l : RerrLocals) (n : Node) (hfits : l.Fits pairs.length) (hprecursor : HasPrecursor d p n)
    (hvalid : ValidAt d n) (hbroken : ¬ ValidAt d ((rerrLoop env s pairs l).exec Op.apply n).1) :
    ReportsAfter d p n ((rerrLoop env s pairs l).exec Op.apply n).1 := by
  induction pairs generalizing l n with
  | nil =>
      -- The send at the end leaves the entry valid.
      refine absurd ?_ hbroken
      unfold rerrLoop
      split
      · exact hvalid
      · unfold RerrTarget.send
        split
        · exact hvalid
        · exact hvalid
  | cons pair rest ih =>
      have hskip : l.Fits rest.length := fits_skip l rest.length hfits
      simp only [rerrLoop, Prog.exec] at hbroken ⊢
      cases he : n.getRoutingEntry pair.1 with
      | none =>
          rw [he] at hbroken
          exact ih l n hskip hprecursor hvalid hbroken
      | some e =>
          by_cases hthrough : e.goesThrough s = true
          · simp only [he, if_pos hthrough, Prog.exec] at hbroken ⊢
            refine reportsAfter_apply d p (.breakRoute env pair.1 pair.2) n _ ?_
            have hfits' := fits_collect l e pair.2 rest.length hfits
            by_cases hslot : slotOf d = slotOf pair.1
            · -- This round breaks the route and takes the destination in.
              rcases hprecursor with ⟨a, ha, hd, hin⟩
              have hsame : a = e := by
                rw [Node.getRoutingEntry_eq, hslot, ← Node.getRoutingEntry_eq, he] at ha
                exact (Option.some.inj ha).symm
              rw [hsame] at hd hin
              exact rerrLoop_tells env s d p hp rest _ _ hfits'
                (tells_of_collect d p l e pair.2 rest.length hfits hd hin)
            · refine ih _ _ hfits' (hasPrecursor_apply d p _ n hprecursor trivial) ?_ hbroken
              rcases hvalid with ⟨a, ha, hstatus⟩
              refine ⟨a, ?_, hstatus⟩
              rw [Node.getRoutingEntry_eq, apply_slots]
              exact (if_neg hslot).trans ha
          · simp only [he, if_neg hthrough] at hbroken ⊢
            exact ih l n hskip hprecursor hvalid hbroken

/-- A node unicasts a reply about a destination to a neighbour, and the entry of the
    destination stays in the table from then on. When a RERR with at most 127 pairs
    turns it from valid to invalid, the node sends a RERR that names the destination
    and is broadcast or unicast to the neighbour. -/
theorem error_reaches_precursor (n : Node) (input : Input) (d p : U32) (hp : p ≠ 0)
    (htold : TellsAbout d p n input) (stretch : List Input)
    (hstays : AllSteps step (OpsMeet (NotRemoved d)) (step n input) stretch) (env : Env) (s : U32)
    (header : RerrHeader) (destPairs : Nat → U32) (hcount : header.destCount.toNat ≤ 127)
    (hvalid : ValidAt d (run step (step n input) stretch))
    (hbroken : ¬ ValidAt d (step (run step (step n input) stretch)
      { env := env, event := .control s (.rerr header destPairs) })) :
    ∃ c ∈ stepCalls (run step (step n input) stretch)
      { env := env, event := .control s (.rerr header destPairs) }, c.Reports d p := by
  have hprecursor := run_invariant step (OpsMeet (NotRemoved d)) (HasPrecursor d p)
    (fun n input hn hok => hasPrecursor_step d p n input hn hok) _ stretch
    (hasPrecursor_of_tells d p n input htold) hstays
  -- From the telling on the precursor stays listed, so it is there at the error.
  generalize run step (step n input) stretch = node at hvalid hbroken hprecursor ⊢
  have hreports : ReportsAfter d p node (step node
      { env := env, event := .control s (.rerr header destPairs) }) := by
    rw [step_rerr] at hbroken ⊢
    by_cases hown : s = node.ipAddress
    · rw [if_pos hown] at hbroken
      exact absurd hvalid hbroken
    · rw [if_neg hown] at hbroken ⊢
      refine rerrLoop_reports env s d p hp _ _ node ⟨rfl, ?_⟩ hprecursor hvalid hbroken
      simp only [rerrPairs, List.length_map, List.length_range]
      show 0 + 2 * header.destCount.toNat ≤ 254
      omega
  rcases hreports with ⟨calls, hcalls, c, hc, hc'⟩
  rw [stepCalls_of_append _ _ calls hcalls]
  exact ⟨c, hc, hc'⟩

/-- A neighbour's request, and a reply that is passed on to it. -/
def requestAnswered : List Input :=
  [receive 0x04000000 (requestFor 7 1 0x03000000 0x04000000 1),
    receive 0x02000000 (replyAfter 1 0x03000000 5 0x04000000)]

theorem error_reaches_precursor_answered :
    ∃ c ∈ stepCalls (run step (Node.boot 0x01000000 0xFFFFFFFF (fun _ => 0)) requestAnswered)
      (receive 0x02000000 (errorAbout 0x03000000 6)), c.Reports 0x03000000 0x04000000 := by
  refine error_reaches_precursor
    (run step (Node.boot 0x01000000 0xFFFFFFFF (fun _ => 0)) (requestAnswered.take 1))
    (receive 0x02000000 (replyAfter 1 0x03000000 5 0x04000000)) 0x03000000 0x04000000 (by decide)
    ⟨nofun, by decide⟩ [] trivial .clear 0x02000000 _ _ (by decide) ?_ ?_
  · exact ⟨_, rfl, rfl⟩
  · rintro ⟨e, he, hvalid⟩
    cases he
    exact absurd hvalid (by decide)

end OpenManet
