import OpenManet.Library.SerialNumber
import OpenManet.Theory.Disclosure
import OpenManet.Theory.Guards

/-!
# Answers as Fresh as Asked

A request that asks for a destination with a number of at least so much passes over
nodes that know less and is answered by one that does not. On the way its number may
be replaced by a fresher one a node has stored, and the answer carries the answering
node's stored number or, at the destination, the larger of the number asked for and
the own number plus one. Each of these is a comparison in wrapped arithmetic; in a
window of half the range the comparisons are of distances from its start, and these
only grow along the way.

A node looks for the destination after the sections about the previous hop and the
originator are done, and finds what stands in the destination's slot then. Unless
the originator shares that slot, a valid number found there is the one that was
stored, by `found_of_stored`.

## Main definitions

* `atDecision`: The node when it looks for the destination.
* `Hop`, `Hop.PassesTo`, `Hop.AnswersWith`: A node that hears a request.
* `RequestSends`: What a node sends upon a request.

## Theorems

* `request_sends`: The packets of a step that delivers a request.
* `answer_as_fresh`: The answer at the end of a chain is as fresh as asked at its start.
-/

namespace OpenManet

/-- The packet a call sends. -/
def ApiCall.packet : ApiCall → Option Packet
  | sendUnicast _ packet | sendBroadcast packet => some packet
  | addUnicastRoutingEntry _ _ | deleteEntry _ _ => none

/-- The node when both route sections are done and it looks for the destination. -/
def atDecision (env : Env) (s : U32) (m : RreqHeader) (n : Node) : Node :=
  afterReverse env s (incrementHopRreq m) (afterPreviousHop env s m.srcIp n)

/-! ### What is sent upon a request -/

/-- What a node that has come to its decision sends upon a request, newest first. The
    hop count of `m` is incremented already. -/
inductive RequestSends (m : RreqHeader) (d : Node) : List Packet → Prop where
  | nothing : RequestSends m d []
  | ownReply (rrep : RrepHeader) (hown : m.destIp = d.ipAddress)
      (hseq : rrep.destSeq = nextOwnSeq m d.sequenceNum) : RequestSends m d [.rrep rrep []]
  /-- The answer from the table, and the gratuitous reply after it, if there is one. -/
  | tableReply (e : RoutingEntry) (rrep : RrepHeader) (beyond : List Byte) (later : List Packet)
      (hfound : d.getRoutingEntry m.destIp = some e) (hanswers : answersFromTable m e = true)
      (hseq : rrep.destSeq = e.destSeq) (hlater : ∀ m', .rreq m' ∉ later) :
      RequestSends m d (later ++ [.rrep rrep beyond])
  | passedOn : RequestSends m d [.rreq (forwardedRreq m (d.getRoutingEntry m.destIp))]

section Sends

variable (env : Env) (s : U32) (m : RreqHeader)

theorem sendRrepDestination_log (d : Node) :
    ∃ rrep, ((sendRrepDestination env m s acceptPacket).exec Op.apply d).1.log =
        .sendUnicast s (.rrep rrep []) :: d.log ∧
      rrep.destSeq = nextOwnSeq m d.sequenceNum := ⟨_, rfl, rfl⟩

theorem sendRrepIntermediate_log (d : Node) (e : RoutingEntry)
    (he : d.getRoutingEntry m.destIp = some e) :
    ∃ (rrep : RrepHeader) (beyond : List Byte) (later : List Packet),
      ((sendRrepIntermediate env m s acceptPacket).exec Op.apply d).1.log.filterMap ApiCall.packet =
        (later ++ [.rrep rrep beyond]) ++ d.log.filterMap ApiCall.packet ∧
      rrep.destSeq = e.destSeq ∧ ∀ m', .rreq m' ∉ later := by
  have hwritten := write_getRoutingEntry m.destIp (.precursor s) d
  rw [he, Option.map_some] at hwritten
  simp only [sendRrepIntermediate, locked, Prog.exec, hwritten]
  by_cases hgratuitous : m.flags ≠ 0
  · rw [if_pos hgratuitous]
    exact ⟨_, _, [gratuitousRrep env m], rfl, rfl, by simp [gratuitousRrep]⟩
  · rw [if_neg hgratuitous]
    exact ⟨_, _, [], rfl, rfl, fun _ => List.not_mem_nil⟩

theorem afterReverseRoute_sends (d : Node) :
    ∃ sent, ((afterReverseRoute env s m d).exec Op.apply d).1.log.filterMap ApiCall.packet =
        sent ++ d.log.filterMap ApiCall.packet ∧ RequestSends m d sent := by
  unfold afterReverseRoute
  by_cases hown : d.ipAddress = m.destIp
  · rw [if_pos hown]
    rcases sendRrepDestination_log env s m ((Op.activate m.srcIp).apply d) with ⟨rrep, hlog, hseq⟩
    refine ⟨[.rrep rrep []], ?_, .ownReply rrep hown.symm ?_⟩
    · simp only [Prog.exec, hlog, apply_log]
      rfl
    · rw [hseq, apply_sequenceNum]
      rfl
  · rw [if_neg hown]
    simp only [Prog.exec, answerOrForward]
    -- It is not the destination: is its own route fresh enough to answer from?
    by_cases hanswers : (d.getRoutingEntry m.destIp).any (answersFromTable m) = true
    · rw [if_pos hanswers]
      cases he : d.getRoutingEntry m.destIp with
      | none =>
          rw [he] at hanswers
          exact absurd hanswers Bool.false_ne_true
      | some e =>
          rw [he, Option.any_some] at hanswers
          rcases sendRrepIntermediate_log env s m d e he
            with ⟨rrep, beyond, later, hlog, hseq, hlater⟩
          exact ⟨_, hlog, .tableReply e rrep beyond later he hanswers hseq hlater⟩
    · rw [if_neg hanswers]
      -- The TTL decides whether the request goes on.
      by_cases httl : m.ttl ≤ 1
      · rw [if_pos httl]
        exact ⟨[], rfl, .nothing⟩
      · rw [if_neg httl]
        exact ⟨_, rfl, .passedOn⟩

/-- The sections before the decision send nothing. -/
theorem atDecision_sends (n : Node) :
    (atDecision env s m n).log.filterMap ApiCall.packet = n.log.filterMap ApiCall.packet := by
  unfold atDecision afterReverse
  rw [apply_log, apply_log, afterPreviousHop_log, Op.calls, Op.calls, Node.whenFound]
  split <;> rfl

theorem atDecision_ipAddress (n : Node) : (atDecision env s m n).ipAddress = n.ipAddress := by
  unfold atDecision afterReverse afterPreviousHop
  simp only [apply_ipAddress]

theorem atDecision_sequenceNum (n : Node) : (atDecision env s m n).sequenceNum = n.sequenceNum := by
  unfold atDecision afterReverse afterPreviousHop
  simp only [apply_sequenceNum, Op.ownNumber]

/-- The packets of a step that delivers a request. -/
theorem request_sends (n : Node) :
    RequestSends (incrementHopRreq m) (atDecision env s m n)
      ((stepCalls n { env := env, event := .control s (.rreq m) }).filterMap ApiCall.packet) := by
  have hlog := congrArg (List.filterMap ApiCall.packet)
    (log_step n { env := env, event := .control s (.rreq m) })
  rw [List.filterMap_append] at hlog
  generalize (stepCalls n { env := env, event := .control s (.rreq m) }).filterMap
    ApiCall.packet = sent at hlog
  -- The step has sent `sent` if its record goes on from the old one with it.
  have hquiet : ∀ n' : Node, step n { env := env, event := .control s (.rreq m) } = n' →
      n'.log.filterMap ApiCall.packet = n.log.filterMap ApiCall.packet → sent = [] := by
    intro n' hn' hsame
    rw [hn', hsame] at hlog
    exact List.self_eq_append_left.mp hlog
  have hstep := step_rreq n env s m
  by_cases hself : s = n.ipAddress
  · rw [if_pos hself] at hstep
    rw [hquiet n hstep rfl]
    exact .nothing
  · rw [if_neg hself] at hstep
    by_cases hdrop : dropped m (afterPreviousHop env s m.srcIp n)
    · rw [recvRreq_dropped env s m n hdrop] at hstep
      rw [hquiet _ hstep (by rw [afterPreviousHop_log]; rfl)]
      exact .nothing
    · rw [recvRreq_new env s m n hdrop] at hstep
      rcases afterReverseRoute_sends env s (incrementHopRreq m) (atDecision env s m n)
        with ⟨sent', hsent', hsends⟩
      rw [hstep] at hlog
      have hcut :
          sent' ++ n.log.filterMap ApiCall.packet = sent ++ n.log.filterMap ApiCall.packet := by
        rw [← hlog, ← atDecision_sends env s m n, ← hsent']
        rfl
      rw [← List.append_cancel_right hcut]
      exact hsends

end Sends

/-! ### Chains of nodes -/

/-- A node that hears a request, with any table and number of its own. -/
structure Hop where
  env : Env
  sender : U32
  node : Node
  heard : RreqHeader

namespace Hop

/-- The calls the node makes upon the request. -/
def calls (h : Hop) : List ApiCall :=
  stepCalls h.node { env := h.env, event := .control h.sender (.rreq h.heard) }

/-- The entry the node finds for the destination. -/
def found (h : Hop) : Option RoutingEntry :=
  (atDecision h.env h.sender h.heard h.node).getRoutingEntry h.heard.destIp

/-- The node broadcasts the request again, and that is what the next one hears. -/
def PassesTo (h next : Hop) : Prop := .sendBroadcast (.rreq next.heard) ∈ h.calls

/-- The first packet the node sends is this reply. -/
def AnswersWith (h : Hop) (rrep : RrepHeader) : Prop :=
  ∃ beyond, (h.calls.filterMap ApiCall.packet).getLast? = some (.rrep rrep beyond)

/-- The numbers of the destination that the node has to do with lie in the window:
    the one it has stored, if it is valid, and its own next one, if it is the
    destination. Where the originator shares the destination's slot, the one stored
    is the one the originator's section leaves there. -/
structure KnowsInWindow (base : U32) (h : Hop) : Prop where
  stored : slotOf h.heard.destIp ≠ slotOf h.heard.srcIp →
    ∀ e, h.node.getRoutingEntry h.heard.destIp = some e → e.seqValid = .seqValid →
      InWindow base e.destSeq
  shared : slotOf h.heard.destIp = slotOf h.heard.srcIp →
    ∀ e, h.found = some e → e.seqValid = .seqValid → InWindow base e.destSeq
  own : h.heard.destIp = h.node.ipAddress → InWindow base (h.node.sequenceNum + 1)

end Hop

/-- A valid number found for a destination that does not share its slot with the
    originator is the one the node had stored. -/
theorem found_of_stored (h : Hop) (hother : slotOf h.heard.destIp ≠ slotOf h.heard.srcIp)
    (e : RoutingEntry) (he : h.found = some e) (hvalid : e.seqValid = .seqValid) :
    ∃ e₀, h.node.getRoutingEntry h.heard.destIp = some e₀ ∧ e₀.seqValid = .seqValid ∧
      e₀.destSeq = e.destSeq := by
  have hsrc : slotOf h.heard.destIp ≠ slotOf (incrementHopRreq h.heard).srcIp := hother
  have hpassed : (afterPreviousHop h.env h.sender h.heard.srcIp h.node).getRoutingEntry
      h.heard.destIp = some e := by
    unfold Hop.found atDecision afterReverse at he
    rw [Node.getRoutingEntry_eq, apply_slots, apply_slots] at he
    simp only [Op.effect, Effect.slot, freshEntry, if_neg hsrc] at he
    exact he
  rw [afterPreviousHop_getRoutingEntry] at hpassed
  by_cases hsender : slotOf h.heard.destIp = slotOf h.sender
  · -- The section about the previous hop has left the number, or made an invalid one.
    rw [if_pos hsender, Option.some.injEq] at hpassed
    rcases previousHop_eq h.env (h.node.isNew h.sender) (previousHopEntry h.env h.sender h.node)
      h.heard.srcIp with ⟨t, ht⟩
    rw [ht] at hpassed
    unfold previousHopEntry at hpassed
    rw [Node.getRoutingEntry_eq, hsender, ← Node.getRoutingEntry_eq]
    cases hstored : h.node.getRoutingEntry h.sender with
    | none =>
        rw [hstored, Option.getD_none] at hpassed
        rw [← hpassed] at hvalid
        exact absurd hvalid (fun hs => by cases hs)
    | some e₀ =>
        rw [hstored, Option.getD_some] at hpassed
        rw [← hpassed] at hvalid ⊢
        exact ⟨e₀, rfl, hvalid, rfl⟩
  · rw [if_neg hsender] at hpassed
    exact ⟨e, hpassed, hvalid, rfl⟩

section Order

variable (base : U32)

/-- So is the number the node finds. -/
theorem Hop.KnowsInWindow.found_inWindow {base : U32} {h : Hop} (hknows : h.KnowsInWindow base)
    (e : RoutingEntry) (he : h.found = some e) (hvalid : e.seqValid = .seqValid) :
    InWindow base e.destSeq := by
  by_cases hshared : slotOf h.heard.destIp = slotOf h.heard.srcIp
  · exact hknows.shared hshared e he hvalid
  · rcases found_of_stored h hshared e he hvalid with ⟨e₀, he₀, hvalid₀, hseq⟩
    rw [← hseq]
    exact hknows.stored hshared e₀ he₀ hvalid₀

/-- In the window the comparison of the code is one of offsets. -/
theorem seqCompare_inWindow (x y : U32) (hx : InWindow base x) (hy : InWindow base y) :
    seqCompare x y = offsetFrom base x - offsetFrom base y :=
  signedDistance_inWindow base x y hx hy

/-- With the flag clear, knowing fresher is a matter of the numbers. -/
theorem knowsFresher_iff (m : RreqHeader) (e : RoutingEntry) (hflag : m.flags &&& rreqUnknown = 0)
    (hm : InWindow base m.destSeq) (he : InWindow base e.destSeq) :
    knowsFresher m e = true ↔ offsetFrom base m.destSeq < offsetFrom base e.destSeq := by
  unfold knowsFresher
  rw [seqCompare_inWindow base _ _ hm he]
  simp only [hflag, ne_eq, not_true, decide_false, Bool.false_or, decide_eq_true_eq]
  omega

/-- The node passes on a number that is no older, and keeps the flags. -/
theorem passesTo_grows (h next : Hop) (hpass : h.PassesTo next)
    (hflag : h.heard.flags &&& rreqUnknown = 0) (hheard : InWindow base h.heard.destSeq)
    (hknows : h.KnowsInWindow base) :
    next.heard.flags &&& rreqUnknown = 0 ∧ InWindow base next.heard.destSeq ∧
      offsetFrom base h.heard.destSeq ≤ offsetFrom base next.heard.destSeq := by
  have hmem : Packet.rreq next.heard ∈ h.calls.filterMap ApiCall.packet :=
    List.mem_filterMap.mpr ⟨_, hpass, rfl⟩
  have hsends := request_sends h.env h.sender h.heard h.node
  unfold Hop.calls at hmem
  generalize
      (stepCalls h.node { env := h.env, event := .control h.sender (.rreq h.heard) }).filterMap
    ApiCall.packet = sent at hmem hsends
  cases hsends with
  | nothing => exact absurd hmem List.not_mem_nil
  | ownReply rrep => exact absurd (List.mem_singleton.mp hmem) nofun
  | tableReply e rrep beyond later hfound hanswers hseq hlater =>
      rcases List.mem_append.mp hmem with hmem | hmem
      · exact absurd hmem (hlater _)
      · exact absurd (List.mem_singleton.mp hmem) nofun
  | passedOn =>
      have heq := List.mem_singleton.mp hmem
      rw [Packet.rreq.injEq] at heq
      rw [heq]
      unfold forwardedRreq
      cases hfound : (atDecision h.env h.sender h.heard h.node).getRoutingEntry
          (incrementHopRreq h.heard).destIp with
      | none => exact ⟨hflag, hheard, Nat.le_refl _⟩
      | some e =>
          simp only []
          split
          · -- The stored number takes the place of the one heard, which is older.
            rename_i hfresher
            have hstored := hknows.found_inWindow e hfound hfresher.1
            have hlt := (knowsFresher_iff base _ e hflag hheard hstored).mp hfresher.2
            exact ⟨hflag, hstored, Nat.le_of_lt hlt⟩
          · exact ⟨hflag, hheard, Nat.le_refl _⟩

/-- The destination's own next number is no older than the one heard. -/
theorem nextOwnSeq_grows (m : RreqHeader) (own : U32) (hflag : m.flags &&& rreqUnknown = 0)
    (hm : InWindow base m.destSeq) (hown : InWindow base (own + 1)) :
    InWindow base (nextOwnSeq m own) ∧
      offsetFrom base m.destSeq ≤ offsetFrom base (nextOwnSeq m own) := by
  unfold nextOwnSeq
  simp only [if_pos hflag]
  rw [seqCompare_inWindow base _ _ hm hown]
  split
  · exact ⟨hown, by omega⟩
  · exact ⟨hm, Nat.le_refl _⟩

/-- The answer carries a number that is no older. -/
theorem answersWith_grows (h : Hop) (rrep : RrepHeader) (hanswer : h.AnswersWith rrep)
    (hflag : h.heard.flags &&& rreqUnknown = 0) (hheard : InWindow base h.heard.destSeq)
    (hknows : h.KnowsInWindow base) :
    InWindow base rrep.destSeq ∧
      offsetFrom base h.heard.destSeq ≤ offsetFrom base rrep.destSeq := by
  rcases hanswer with ⟨beyond, hlast⟩
  have hsends := request_sends h.env h.sender h.heard h.node
  unfold Hop.calls at hlast
  -- What is sent upon a request is one of four kinds, and two end with a reply.
  generalize
      (stepCalls h.node { env := h.env, event := .control h.sender (.rreq h.heard) }).filterMap
    ApiCall.packet = sent at hlast hsends
  cases hsends with
  | nothing => exact absurd hlast nofun
  | ownReply rrep' hown hseq =>
      cases hlast
      rw [hseq, atDecision_sequenceNum]
      refine nextOwnSeq_grows base (incrementHopRreq h.heard) _ hflag hheard (hknows.own ?_)
      rw [← atDecision_ipAddress h.env h.sender h.heard h.node]
      exact hown
  | tableReply e rrep' beyond' later hfound hanswers hseq hlater =>
      rw [List.getLast?_concat] at hlast
      cases hlast
      simp only [answersFromTable, Bool.and_eq_true, decide_eq_true_eq] at hanswers
      -- The entry is fresher than the request asked for, and what it asked only grew.
      have hstored := hknows.found_inWindow e hfound hanswers.1.2
      have hlt := (knowsFresher_iff base (incrementHopRreq h.heard) e hflag hheard hstored).mp
        hanswers.2
      rw [hseq]
      exact ⟨hstored, Nat.le_of_lt hlt⟩
  | passedOn => exact absurd hlast nofun

/-- A request that asks for a number is passed along a chain of nodes with arbitrary
    tables and answered by the last one. With the numbers of the destination that occur
    in one window, the number of the answer is equal to or newer than the one asked for. -/
theorem answer_as_fresh (first : Hop) (rest : List Hop) (rrep : RrepHeader)
    (hchain : (first :: rest).IsChain Hop.PassesTo)
    (hanswer : ((first :: rest).getLast (List.cons_ne_nil first rest)).AnswersWith rrep)
    (hflag : first.heard.flags &&& rreqUnknown = 0) (hasked : InWindow base first.heard.destSeq)
    (hknows : ∀ h ∈ first :: rest, h.KnowsInWindow base) :
    seqCompare rrep.destSeq first.heard.destSeq ≥ 0 := by
  have hgrows : InWindow base rrep.destSeq ∧
      offsetFrom base first.heard.destSeq ≤ offsetFrom base rrep.destSeq := by
    -- From hop to hop the number asked for only grows within the window.
    induction rest generalizing first with
    | nil =>
        exact answersWith_grows base first rrep hanswer hflag hasked
          (hknows first List.mem_cons_self)
    | cons next rest ih =>
        rcases List.isChain_cons_cons.mp hchain with ⟨hpass, hrest⟩
        rcases passesTo_grows base first next hpass hflag hasked (hknows first List.mem_cons_self)
          with ⟨hflag', hasked', hle⟩
        rw [List.getLast_cons (List.cons_ne_nil next rest)] at hanswer
        have hnext := ih next hrest hanswer hflag' hasked'
          (fun h hh => hknows h (List.mem_cons_of_mem _ hh))
        exact ⟨hnext.1, Nat.le_trans hle hnext.2⟩
  rw [seqCompare_inWindow base _ _ hgrows.1 hasked]
  omega

end Order

/-- A request of 1.0.0.0 for 3.0.0.0 with a number of seven at least. -/
def askedFor : RreqHeader := { generateRreqMessage 0 1 0x03000000 7 0x01000000 1 with ttl := 5 }

/-- It passes over 2.0.0.0, which knows nothing yet. -/
def relay : Hop := ⟨.clear, 0x01000000, Node.boot 0x02000000 0xFFFFFFFF (fun _ => 0), askedFor⟩

/-- It comes to 3.0.0.0, whose own number is zero. -/
def destination : Hop :=
  ⟨.clear, 0x02000000, Node.boot 0x03000000 0xFFFFFFFF (fun _ => 0),
    { askedFor with hopCount := 1, ttl := 4 }⟩

/-- The answer with the number asked for. -/
def destinationReply : RrepHeader :=
  generateRrepMessage (fun _ => 0) 0 0x03000000 7 0x01000000 (toU32 myRouteTimeout)

theorem answer_as_fresh_overRelay : seqCompare destinationReply.destSeq askedFor.destSeq ≥ 0 := by
  have hpass : relay.PassesTo destination := by
    unfold Hop.PassesTo
    decide
  have hanswer : destination.AnswersWith destinationReply := ⟨[], by decide⟩
  have hknows : ∀ h ∈ [relay, destination], h.KnowsInWindow 0 := by
    intro h hh
    rcases List.mem_cons.mp hh with rfl | hh
    · exact ⟨fun _ e he => absurd he nofun, fun hslot => absurd hslot (by decide),
        fun hown => absurd hown (by decide)⟩
    · rcases List.mem_singleton.mp hh with rfl
      exact ⟨fun _ e he => absurd he nofun, fun hslot => absurd hslot (by decide),
        fun _ => by decide⟩
  exact answer_as_fresh 0 relay [destination] destinationReply
    (List.isChain_cons_cons.mpr ⟨hpass, List.isChain_singleton _⟩) hanswer (by decide) (by decide)
    hknows

end OpenManet
