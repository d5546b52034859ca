import OpenManet.Theory.Freshness

/-!
# Who Answers a Request

A node that has installed the reverse route looks for an entry of the destination. From
a valid one that is fresh enough it answers, with a reply to the sender and, if the
request asks for it, a gratuitous one to the destination; otherwise it passes the
request on as long as the TTL lasts.

Both tests have a slip. The comment above the first asks for a stored number greater
than or equal to the one in the request, and the code for a greater one, so a node that
knows exactly the number asked for passes the request on. The second tests
`flags && RREQ_GRAT`, which is true of any flags at all.

The reply carries the stored hop count in eight bits of the thirty-two it is kept in.

## Main definitions

* `ShouldAnswer`, `raisedSeq`: The rule of the comment, and the number passed on.
* `DecidesRightly`: A node answers, passes on or stays silent by that rule.
* `ApiCall.Describes`: A call sends a reply about this route.
* `AnswersAsAsked`: What an answer from the table sends and lists.

## Theorems

* `sendRrepIntermediate_exec`: The answer from the table, operation by operation.
* `decidesRightly_iff`: When a node follows the rule.
* `answersAsAsked_iff`: When it does what the flags ask for.
-/

namespace OpenManet

/-! ### The answer from the table -/

/-- The node once both lists of precursors have grown and the reply is sent. -/
def afterAnswer (env : Env) (m : RreqHeader) (sender : U32) (e : RoutingEntry) (d : Node) : Node :=
  (Op.write m.srcIp (.precursor e.nextHop)).apply
    ((Op.sendUnicast sender (intermediateRrep env m e)).apply
      ((Op.write m.destIp (.precursor sender)).apply d))

theorem sendRrepIntermediate_exec (env : Env) (m : RreqHeader) (sender : U32) (d : Node)
    (e : RoutingEntry) (he : d.getRoutingEntry m.destIp = some e) :
    ((sendRrepIntermediate env m sender acceptPacket).exec Op.apply d).1 =
      if m.flags ≠ 0 then
        (Op.sendUnicast e.nextHop (gratuitousRrep env m)).apply (afterAnswer env m sender e d)
      else afterAnswer env m sender e d := by
  have hwritten := write_getRoutingEntry m.destIp (.precursor sender) d
  rw [he, Option.map_some] at hwritten
  simp only [sendRrepIntermediate, locked, Prog.exec, hwritten]
  by_cases hflags : m.flags ≠ 0
  · rw [if_pos hflags, if_pos hflags]
    rfl
  · rw [if_neg hflags, if_neg hflags]
    rfl

theorem afterAnswer_log (env : Env) (m : RreqHeader) (sender : U32) (e : RoutingEntry) (d : Node) :
    (afterAnswer env m sender e d).log =
      .sendUnicast sender (intermediateRrep env m e) :: d.log := rfl

/-- Each of the two lists grows by one address. -/
def RoutingEntry.listed (m : RreqHeader) (sender nextHop : U32) (i : Fin 256)
    (e : RoutingEntry) : RoutingEntry :=
  { e with
    precursorList := e.precursorList ++ (if i = slotOf m.destIp then [sender] else []) ++
      (if i = slotOf m.srcIp then [nextHop] else []) }

theorem afterAnswer_slots (env : Env) (m : RreqHeader) (sender : U32) (e : RoutingEntry) (d : Node)
    (i : Fin 256) :
    (afterAnswer env m sender e d).routes.slots i =
      (d.routes.slots i).map (RoutingEntry.listed m sender e.nextHop i) := by
  unfold afterAnswer
  rw [apply_slots, apply_slots, apply_slots]
  simp only [Op.effect, Effect.slot]
  cases d.routes.slots i with
  | none =>
      split
      · split <;> rfl
      · split <;> rfl
  | some e' =>
      by_cases hdest : i = slotOf m.destIp
      · by_cases hsrc : i = slotOf m.srcIp
        · simp only [if_pos hdest, if_pos hsrc, Option.map_some, RoutingEntry.listed, Write.apply]
        · simp only [if_pos hdest, if_neg hsrc, Option.map_some, RoutingEntry.listed, Write.apply,
            List.append_nil]
      · by_cases hsrc : i = slotOf m.srcIp
        · simp only [if_neg hdest, if_pos hsrc, Option.map_some, RoutingEntry.listed, Write.apply,
            List.append_nil]
        · simp only [if_neg hdest, if_neg hsrc, Option.map_some, RoutingEntry.listed,
            List.append_nil]

/-- The call sends the receiver a reply about a route to `dest`, for the originator
    `src`, with this number and so many hops. -/
def ApiCall.Describes (receiver dest src destSeq hops : U32) : ApiCall → Prop
  | sendUnicast receiver' (.rrep rrep _) =>
    receiver' = receiver ∧ rrep.destIp = dest ∧ rrep.srcIp = src ∧ rrep.destSeq = destSeq ∧
      rrep.hopCount.setWidth 32 = hops
  | _ => False

/-- From `d` to `d'` the node has sent one reply about the stored route, after it a
    gratuitous one if the request has the flag for it, and has listed the sender under
    the destination and the next hop under the originator, and nothing else. -/
structure AnswersAsAsked (m : RreqHeader) (sender : U32) (e : RoutingEntry) (d d' : Node) :
    Prop where
  calls : ∃ reply later, d'.log = later ++ reply :: d.log ∧
    reply.Describes sender m.destIp m.srcIp e.destSeq e.hopCount ∧
    if m.flags &&& rreqGrat ≠ 0 then
      ∃ gratuitous : ApiCall, later = [gratuitous] ∧
        gratuitous.Describes e.nextHop m.srcIp m.destIp m.srcSeq (m.hopCount.setWidth 32)
    else later = []
  entries : ∀ i, d'.routes.slots i =
    (d.routes.slots i).map (RoutingEntry.listed m sender e.nextHop i)

theorem setWidth_roundtrip_iff (x : U32) : (x.setWidth 8).setWidth 32 = x ↔ x.toNat < 256 := by
  have hnat : ((x.setWidth 8).setWidth 32).toNat = x.toNat % 256 := by
    rw [BitVec.toNat_setWidth, BitVec.toNat_setWidth]
    omega
  constructor
  · intro h
    rw [h] at hnat
    omega
  · intro h
    refine BitVec.eq_of_toNat_eq ?_
    rw [hnat]
    exact Nat.mod_eq_of_lt h

/-- The reply about the stored route gives its hop count if that fits. -/
theorem intermediateRrep_describes_iff (env : Env) (m : RreqHeader) (sender : U32)
    (e : RoutingEntry) :
    (ApiCall.sendUnicast sender (intermediateRrep env m e)).Describes sender m.destIp m.srcIp
        e.destSeq e.hopCount ↔ e.hopCount.toNat < 256 := by
  rw [← setWidth_roundtrip_iff]
  exact ⟨fun h => h.2.2.2.2, fun h => ⟨rfl, rfl, rfl, rfl, h⟩⟩

/-- An answer from the table does what the flags ask for exactly when the request has no
    flags or the one for the gratuitous reply among them, and the stored hop count fits
    into a reply. -/
theorem answersAsAsked_iff (env : Env) (m : RreqHeader) (sender : U32) (d : Node)
    (e : RoutingEntry) (he : d.getRoutingEntry m.destIp = some e) :
    AnswersAsAsked m sender e d
        ((sendRrepIntermediate env m sender acceptPacket).exec Op.apply d).1 ↔
      (m.flags = 0 ∨ m.flags &&& rreqGrat ≠ 0) ∧ e.hopCount.toNat < 256 := by
  rw [sendRrepIntermediate_exec env m sender d e he,
    ← intermediateRrep_describes_iff env m sender e]
  by_cases hflags : m.flags ≠ 0
  · rw [if_pos hflags]
    constructor
    · intro h
      rcases h.calls with ⟨reply, later, hlog, hreply, hlater⟩
      by_cases hgrat : m.flags &&& rreqGrat ≠ 0
      · rw [if_pos hgrat] at hlater
        rcases hlater with ⟨gratuitous, rfl, -⟩
        have hsent : _ :: .sendUnicast sender (intermediateRrep env m e) :: d.log =
          gratuitous :: reply :: d.log := hlog
        rw [List.cons.injEq, List.cons.injEq] at hsent
        rw [hsent.2.1]
        exact ⟨Or.inr hgrat, hreply⟩
      · -- Two replies are sent where one is asked for.
        rw [if_neg hgrat] at hlater
        rw [hlater] at hlog
        exact absurd (congrArg List.length hlog) (by simp [Op.apply, Node.call, afterAnswer_log])
    · rintro ⟨hgrat, hreply⟩
      refine ⟨⟨_, [_], rfl, hreply, ?_⟩, fun i => ?_⟩
      · rw [if_pos (hgrat.resolve_left hflags)]
        exact ⟨_, rfl, rfl, rfl, rfl, rfl, rfl⟩
      · exact afterAnswer_slots env m sender e d i
  · rw [if_neg hflags]
    have hzero : m.flags = 0 := not_not.mp hflags
    have hgrat : ¬ m.flags &&& rreqGrat ≠ 0 := by
      rw [hzero]
      decide
    constructor
    · intro h
      rcases h.calls with ⟨reply, later, hlog, hreply, hlater⟩
      rw [if_neg hgrat] at hlater
      rw [hlater] at hlog
      have hsent : .sendUnicast sender (intermediateRrep env m e) :: d.log = reply :: d.log := hlog
      rw [List.cons.injEq] at hsent
      rw [hsent.1]
      exact ⟨Or.inl hzero, hreply⟩
    · rintro ⟨-, hreply⟩
      refine ⟨⟨_, [], rfl, hreply, ?_⟩, afterAnswer_slots env m sender e d⟩
      rw [if_neg hgrat]

/-- A node that has heard from 3.0.0.0 that its number is 7, and then a request of
    1.0.0.0 for another node. -/
def knowsBothEnds : Node :=
  run step (Node.boot 0x02000000 0xFFFFFFFF fun _ => 0)
    [receive 0x03000000 (replyAfter 0 0x03000000 7 0x04000000),
     receive 0x01000000 (requestFor 1 1 0x09000000 0x01000000 1)]

/-- Its route to 3.0.0.0. -/
def routeToThree : RoutingEntry :=
  (knowsBothEnds.getRoutingEntry 0x03000000).getD
    (freshEntry .clear 0x03000000 0 .seqInvalid 0 0 0)

/-- A request with the flag for the gratuitous reply is answered with both. -/
theorem answersAsAsked_iff_gratuitous :
    AnswersAsAsked { askedFor with flags := rreqGrat } 0x01000000 routeToThree knowsBothEnds
      ((sendRrepIntermediate .clear { askedFor with flags := rreqGrat } 0x01000000
        acceptPacket).exec Op.apply knowsBothEnds).1 :=
  (answersAsAsked_iff .clear { askedFor with flags := rreqGrat } 0x01000000 knowsBothEnds
    routeToThree rfl).mpr (by decide)

/-- A request with no flag but that for an unknown number is answered with both, too. -/
theorem not_answersAsAsked_unknown :
    ¬ ∀ (env : Env) (m : RreqHeader) (sender : U32) (d : Node) (e o : RoutingEntry),
      d.getRoutingEntry m.destIp = some e → d.getRoutingEntry m.srcIp = some o →
      AnswersAsAsked m sender e d
        ((sendRrepIntermediate env m sender acceptPacket).exec Op.apply d).1 := by
  intro h
  rcases (h .clear { askedFor with flags := rreqUnknown } 0x01000000 knowsBothEnds routeToThree
    _ rfl rfl).calls with ⟨reply, later, hlog, -, hlater⟩
  rw [if_neg (by decide)] at hlater
  rw [hlater] at hlog
  have hboth : ((sendRrepIntermediate .clear { askedFor with flags := rreqUnknown } 0x01000000
      acceptPacket).exec Op.apply knowsBothEnds).1.log.length = knowsBothEnds.log.length + 2 := by
    decide
  have hlength := hboth.symm.trans (congrArg List.length hlog)
  simp only [List.nil_append, List.length_cons] at hlength
  omega

/-! ### Who answers -/

/-- The stored entry is one to answer from, by the rule of the comment. -/
def ShouldAnswer (m : RreqHeader) (e : RoutingEntry) : Prop :=
  m.flags &&& rreqDestOnly = 0 ∧ e.status = .routeValid ∧ e.seqValid = .seqValid ∧
    (m.flags &&& rreqUnknown ≠ 0 ∨ seqCompare e.destSeq m.destSeq ≥ 0)

instance (m : RreqHeader) (e : RoutingEntry) : Decidable (ShouldAnswer m e) :=
  inferInstanceAs (Decidable (_ ∧ _ ∧ _ ∧ _))

/-- The later of two numbers in signed 32-bit order. -/
def signedMax (x y : U32) : U32 := if seqCompare x y < 0 then y else x

/-- The number the request is passed on with: that of a stored valid one if the request
    has none, and otherwise the later of the two. -/
def raisedSeq (m : RreqHeader) (stored : Option RoutingEntry) : U32 :=
  match stored with
  | none => m.destSeq
  | some e =>
    if e.seqValid = .seqValid then
      if m.flags &&& rreqUnknown ≠ 0 then e.destSeq else signedMax m.destSeq e.destSeq
    else m.destSeq

/-- Once it has come to its decision, a node that is neither end of the request answers
    by the rule, passes the request on if the TTL lasts, or does nothing, and it has
    sent nothing before. -/
def DecidesRightly (env : Env) (s : U32) (m : RreqHeader) (n : Node) : Prop :=
  let d := atDecision env s m n
  let stored := d.getRoutingEntry m.destIp
  d.log.filterMap ApiCall.packet = n.log.filterMap ApiCall.packet ∧
    ((recvRreq env s m).exec Op.apply n).1 =
      if stored.any (fun e => ShouldAnswer m e) then
        ((sendRrepIntermediate env (incrementHopRreq m) s acceptPacket).exec Op.apply d).1
      else if 1 < m.ttl then
        d.call (.sendBroadcast (.rreq { m with
          hopCount := m.hopCount + 1, ttl := m.ttl - 1, destSeq := raisedSeq m stored }))
      else d

theorem seqCompare_neg_iff (x y : U32) (hnear : x - y ≠ 0x80000000) :
    seqCompare x y < 0 ↔ seqCompare y x ≥ 0 ∧ x ≠ y := by
  have hminus : seqCompare y x = -seqCompare x y := by
    unfold seqCompare
    rw [← BitVec.toInt_neg_of_ne_intMin hnear]
    exact congrArg BitVec.toInt (neg_sub x y).symm
  have hzero : seqCompare x y = 0 ↔ x = y := by
    unfold seqCompare
    rw [← sub_eq_zero (a := x), ← BitVec.toInt_inj]
    rfl
  rw [hminus, Ne, ← hzero]
  omega

/-- The stored entry is one to answer from that knows exactly the number asked for. -/
def KnowsSameNumber (m : RreqHeader) (e : RoutingEntry) : Prop :=
  m.flags &&& rreqDestOnly = 0 ∧ e.status = .routeValid ∧ e.seqValid = .seqValid ∧
    m.flags &&& rreqUnknown = 0 ∧ e.destSeq = m.destSeq

instance (m : RreqHeader) (e : RoutingEntry) : Decidable (KnowsSameNumber m e) :=
  inferInstanceAs (Decidable (_ ∧ _ ∧ _ ∧ _ ∧ _))

theorem knowsFresher_eq_true (m : RreqHeader) (e : RoutingEntry) :
    knowsFresher m e = true ↔
      m.flags &&& rreqUnknown ≠ 0 ∨ seqCompare m.destSeq e.destSeq < 0 := by
  unfold knowsFresher
  rw [Bool.or_eq_true, decide_eq_true_eq, decide_eq_true_eq]

/-- The code answers by the rule but for equal numbers. -/
theorem answersFromTable_iff (m : RreqHeader) (e : RoutingEntry)
    (hnear : m.destSeq - e.destSeq ≠ 0x80000000) :
    answersFromTable m e = true ↔ ShouldAnswer m e ∧ ¬ KnowsSameNumber m e := by
  unfold answersFromTable
  rw [Bool.and_eq_true, Bool.and_eq_true, Bool.and_eq_true, decide_eq_true_eq, decide_eq_true_eq,
    decide_eq_true_eq, knowsFresher_eq_true, seqCompare_neg_iff _ _ hnear]
  constructor
  · rintro ⟨⟨⟨honly, hup⟩, hseq⟩, hfresh⟩
    rcases hfresh with hunknown | ⟨hge, hne⟩
    · exact ⟨⟨honly, hup, hseq, Or.inl hunknown⟩, fun h => hunknown h.2.2.2.1⟩
    · exact ⟨⟨honly, hup, hseq, Or.inr hge⟩, fun h => hne h.2.2.2.2.symm⟩
  · rintro ⟨⟨honly, hup, hseq, hfresh⟩, hother⟩
    refine ⟨⟨⟨honly, hup⟩, hseq⟩, ?_⟩
    by_cases hunknown : m.flags &&& rreqUnknown = 0
    · exact Or.inr ⟨hfresh.resolve_left (not_not.mpr hunknown),
        fun heq => hother ⟨honly, hup, hseq, hunknown, heq.symm⟩⟩
    · exact Or.inl hunknown

/-- A request is passed on with the number it should be. -/
theorem forwardedRreq_eq (m : RreqHeader) (stored : Option RoutingEntry) :
    forwardedRreq (incrementHopRreq m) stored =
      { m with hopCount := m.hopCount + 1, ttl := m.ttl - 1, destSeq := raisedSeq m stored } := by
  cases stored with
  | none => rfl
  | some e =>
      have hfresher : knowsFresher { incrementHopRreq m with ttl := m.ttl - 1 } e = true ↔
          m.flags &&& rreqUnknown ≠ 0 ∨ seqCompare m.destSeq e.destSeq < 0 :=
        knowsFresher_eq_true m e
      have hforwarded : forwardedRreq (incrementHopRreq m) (some e) =
          if e.seqValid = .seqValid ∧
              knowsFresher { incrementHopRreq m with ttl := m.ttl - 1 } e = true then
            { incrementHopRreq m with ttl := m.ttl - 1, destSeq := e.destSeq }
          else { incrementHopRreq m with ttl := m.ttl - 1 } := rfl
      rw [hforwarded]
      -- The code asks once for what the rule asks for in two steps.
      simp only [raisedSeq, signedMax]
      by_cases hseq : e.seqValid = .seqValid
      · by_cases hunknown : m.flags &&& rreqUnknown ≠ 0
        · rw [if_pos ⟨hseq, hfresher.mpr (Or.inl hunknown)⟩, if_pos hseq, if_pos hunknown]
          rfl
        · rw [if_pos hseq, if_neg hunknown]
          by_cases hless : seqCompare m.destSeq e.destSeq < 0
          · rw [if_pos ⟨hseq, hfresher.mpr (Or.inr hless)⟩, if_pos hless]
            rfl
          · rw [if_neg (fun h => (hfresher.mp h.2).elim hunknown hless), if_neg hless]
            rfl
      · rw [if_neg (fun h => hseq h.1), if_neg hseq]
        rfl

/-- An answer from the table ends with a packet for one neighbour. -/
theorem sendRrepIntermediate_newest (env : Env) (m : RreqHeader) (sender : U32) (d : Node)
    (e : RoutingEntry) (he : d.getRoutingEntry m.destIp = some e) :
    ∃ receiver packet earlier,
      ((sendRrepIntermediate env m sender acceptPacket).exec Op.apply d).1.log =
        .sendUnicast receiver packet :: (earlier ++ d.log) := by
  rw [sendRrepIntermediate_exec env m sender d e he]
  split
  · exact ⟨e.nextHop, gratuitousRrep env m, [_], rfl⟩
  · exact ⟨sender, intermediateRrep env m e, [], rfl⟩

/-- What a node that is neither end of a new request does with it. -/
theorem recvRreq_decides (env : Env) (s : U32) (m : RreqHeader) (n : Node)
    (hdest : m.destIp ≠ n.ipAddress) (hnew : ¬ dropped m (afterPreviousHop env s m.srcIp n)) :
    ((recvRreq env s m).exec Op.apply n).1 =
      if ((atDecision env s m n).getRoutingEntry m.destIp).any (answersFromTable m) then
        ((sendRrepIntermediate env (incrementHopRreq m) s acceptPacket).exec Op.apply
          (atDecision env s m n)).1
      else if 1 < m.ttl then
        (atDecision env s m n).call (.sendBroadcast (.rreq { m with
          hopCount := m.hopCount + 1, ttl := m.ttl - 1
          destSeq := raisedSeq m ((atDecision env s m n).getRoutingEntry m.destIp) }))
      else atDecision env s m n := by
  have hother : (atDecision env s m n).ipAddress ≠ (incrementHopRreq m).destIp := by
    rw [atDecision_ipAddress]
    exact hdest.symm
  have hrest : (recvNewRreq env s (incrementHopRreq m)).exec Op.apply
      (afterPreviousHop env s m.srcIp n) =
      (afterReverseRoute env s (incrementHopRreq m) (atDecision env s m n)).exec Op.apply
        (atDecision env s m n) := rfl
  rw [recvRreq_new env s m n hnew, hrest, afterReverseRoute, if_neg hother, ← forwardedRreq_eq]
  simp only [Prog.exec, answerOrForward]
  -- The hop count, which is incremented by now, has no part in the decision.
  have hsame : answersFromTable (incrementHopRreq m) = answersFromTable m := rfl
  have hdestIp : (incrementHopRreq m).destIp = m.destIp := rfl
  have httl : (incrementHopRreq m).ttl = m.ttl := rfl
  rw [hsame, hdestIp, httl]
  by_cases hanswers : ((atDecision env s m n).getRoutingEntry m.destIp).any
      (answersFromTable m) = true
  · rw [if_pos hanswers, if_pos hanswers]
  · rw [if_neg hanswers, if_neg hanswers]
    by_cases hlast : m.ttl ≤ 1
    · rw [if_pos hlast, if_neg (BitVec.not_lt.mpr hlast)]
      rfl
    · rw [if_neg hlast, if_pos (BitVec.not_le.mp hlast)]
      rfl

/-- A node that is neither end of a new request follows the rule exactly when it does
    not have an entry to answer from with the very number asked for. -/
theorem decidesRightly_iff (env : Env) (s : U32) (m : RreqHeader) (n : Node)
    (hdest : m.destIp ≠ n.ipAddress) (hnew : ¬ dropped m (afterPreviousHop env s m.srcIp n))
    (hnear : ∀ e, (atDecision env s m n).getRoutingEntry m.destIp = some e →
      m.destSeq - e.destSeq ≠ 0x80000000) :
    DecidesRightly env s m n ↔
      ∀ e, (atDecision env s m n).getRoutingEntry m.destIp = some e → ¬ KnowsSameNumber m e := by
  have hquiet : (atDecision env s m n).log.filterMap ApiCall.packet =
      n.log.filterMap ApiCall.packet := atDecision_sends env s m n
  simp only [DecidesRightly, recvRreq_decides env s m n hdest hnew, hquiet, true_and]
  cases hstored : (atDecision env s m n).getRoutingEntry m.destIp with
  | none =>
      simp only [Option.any_none, Bool.false_eq_true, if_false]
      exact iff_of_true trivial nofun
  | some e =>
      have hcode := answersFromTable_iff m e (hnear e hstored)
      simp only [Option.any_some, Option.some.injEq, forall_eq', decide_eq_true_eq]
      by_cases hsame : KnowsSameNumber m e
      · -- The rule asks for an answer, and the newest call is none.
        have hshould : ShouldAnswer m e := by
          refine ⟨hsame.1, hsame.2.1, hsame.2.2.1, Or.inr ?_⟩
          rw [hsame.2.2.2.2, seqCompare, sub_self]
          decide
        rw [if_neg (fun h => (hcode.mp h).2 hsame), if_pos hshould]
        refine iff_of_false (fun heq => ?_) (not_not.mpr hsame)
        rcases sendRrepIntermediate_newest env (incrementHopRreq m) s _ e hstored
          with ⟨receiver, packet, earlier, hlog⟩
        rw [← heq] at hlog
        split at hlog
        · simp only [Node.call, List.cons.injEq, reduceCtorEq, false_and] at hlog
        · have hlength := congrArg List.length hlog
          simp only [List.length_cons, List.length_append] at hlength
          omega
      · refine iff_of_true ?_ hsame
        by_cases hshould : ShouldAnswer m e
        · rw [if_pos (hcode.mpr ⟨hshould, hsame⟩), if_pos hshould]
        · rw [if_neg (fun h => hshould (hcode.mp h).1), if_neg hshould]

/-- A request for a number older than the stored one is answered. -/
theorem decidesRightly_iff_older :
    DecidesRightly .clear 0x01000000 { askedFor with destSeq := 6, rreqId := 2 } knowsBothEnds :=
  (decidesRightly_iff .clear 0x01000000 { askedFor with destSeq := 6, rreqId := 2 } knowsBothEnds
    (by decide) (by unfold dropped; decide) (by decide)).mpr (by decide)

/-- A request for the very number stored is passed on instead. -/
theorem not_decidesRightly_same :
    ¬ ∀ (env : Env) (s : U32) (m : RreqHeader) (n : Node), m.srcIp ≠ n.ipAddress →
      m.destIp ≠ n.ipAddress → ¬ dropped m (afterPreviousHop env s m.srcIp n) →
      (∀ e, (atDecision env s m n).getRoutingEntry m.destIp = some e →
        m.destSeq - e.destSeq ≠ 0x80000000) → DecidesRightly env s m n := by
  intro h
  have hright := (h .clear 0x01000000 { askedFor with rreqId := 2 } knowsBothEnds (by decide)
    (by decide) (by unfold dropped; decide) (by decide)).2
  exact absurd (congrArg Node.log hright) (by decide)

end OpenManet
