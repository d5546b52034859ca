import OpenManet.Theory.Effect

/-!
# What an Operation May Rely On

A handler performs an operation only after the tests that stand before it in the
source, so an operation finds the node in less than any state. `Op.Guard` is what
each finds, and `handler_guard` that every handler sees to it. An invariant is
then checked against an operation under its guard, and the handlers need not be
opened again.

The guards of interest are these. The flag `new` is set only while the entry is
as `create_or_get_routing_entry` made it. A route is broken or expired only while
it is valid, and removed only when it is not. A search starts only while no timer
runs for the entry and no other search does. A search thread acts only while it
exists. Entries are made only by the handlers of requests, replies and outgoing
packets, and the sections that write a route do so from the message received.

A packet is sent for a reason: `Unicasts` and `Broadcasts` list the packets a node
sends and what of the node and of the event at hand they are made from.

## Main definitions

* `Unicasts`, `Broadcasts`: Why a packet is sent.
* `SearchThread.Asks`: The request a search thread is sending.
* `Op.Guard`: What an operation finds.

## Theorems

* `handler_guard`: Every handler performs its operations under their guards.
* `node_invariant_guarded`: The invariant rule with the guards at hand.
-/

namespace OpenManet

/-- The entry is the one just made for the address, with these values. -/
def Node.Fresh (env : Env) (ip destSeq : U32) (validSeq : SeqValid)
    (nextHop hopCount timeOut : U32) (n : Node) : Prop :=
  n.routes.slots (slotOf ip) = some (freshEntry env ip destSeq validSeq nextHop hopCount timeOut)

/-- The thread exists and searches for the address. -/
def Node.Searches (id : Nat) (dest : U32) (n : Node) : Prop :=
  ∃ t ∈ n.threads, t.id = id ∧ t.dest = dest

/-- The events whose handlers make entries. -/
def Event.installs : Event → Bool
  | control _ (.rreq _) | control _ (.rrep _) | outgoing _ => true
  | _ => false

/-- Why a packet is sent to one node. -/
inductive Unicasts (event : Event) (n : Node) (dest : U32) : Packet → Prop where
  /-- The node is the destination of the request. -/
  | ownReply (env : Env) (m : RreqHeader) (hevent : event = .control dest (.rreq m))
      (hown : m.destIp = n.ipAddress) :
      Unicasts event n dest (.rrep (generateRrepMessage (env.memory .rrep) 0 n.ipAddress
        n.sequenceNum m.srcIp (toU32 myRouteTimeout)) [])
  /-- The answer from the table. The asker is a precursor by then. -/
  | tableReply (env : Env) (m : RreqHeader) (e : RoutingEntry)
      (hevent : event = .control dest (.rreq m)) (hother : m.destIp ≠ n.ipAddress)
      (hfound : n.getRoutingEntry m.destIp = some e) (hanswers : answersFromTable m e = true)
      (hprecursor : dest ∈ e.precursorList) :
      Unicasts event n dest (intermediateRrep env (incrementHopRreq m) e)
  /-- The gratuitous reply. The next hop is a precursor of the originator's entry,
      if there is one. -/
  | gratuitousReply (env : Env) (s : U32) (m : RreqHeader)
      (hevent : event = .control s (.rreq m)) (hother : m.destIp ≠ n.ipAddress)
      (hprecursor : ∀ e, n.getRoutingEntry m.srcIp = some e → dest ∈ e.precursorList) :
      Unicasts event n dest (gratuitousRrep env (incrementHopRreq m))
  /-- A reply passed on along the reverse route, whose next hop is a precursor of
      the destination's entry, if there is one. -/
  | passedOn (s : U32) (m : RrepHeader) (hevent : event = .control s (.rrep m))
      (hasked : m.srcIp ≠ 0)
      (hprecursor : ∀ e, n.getRoutingEntry m.destIp = some e → dest ∈ e.precursorList) :
      Unicasts event n dest (.rrep (incrementHopRrep m) [])
  | error (header : RerrHeader) (words : List U32) : Unicasts event n dest (.rerr header words)
  | noError (length : Nat) : Unicasts event n dest (.null length)
  | timing : Unicasts event n dest .timing

/-- Why a packet is sent to everybody. -/
inductive Broadcasts (event : Event) (n : Node) : Packet → Prop where
  /-- A request the node has no answer to. -/
  | request (s : U32) (m : RreqHeader) (hevent : event = .control s (.rreq m))
      (httl : ¬ m.ttl ≤ 1) :
      Broadcasts event n (.rreq (forwardedRreq (incrementHopRreq m) (n.getRoutingEntry m.destIp)))
  | hello (hstage : n.helloStage = .sleeping) :
      Broadcasts event n (.rrep (generateRrepMessage n.helloBlock 0 n.ipAddress n.sequenceNum
        0 (toU32 (allowedHelloLoss * helloIntervalMs))) [])
  | error (header : RerrHeader) (words : List U32) : Broadcasts event n (.rerr header words)
  | noError (length : Nat) : Broadcasts event n (.null length)

/-- The TTL a search starts with. -/
def startTtl (destEntry : RoutingEntry) : U32 :=
  if ttlStart > destEntry.hopCount then ttlStart else destEntry.hopCount + ttlIncrement

/-- The thread is about to send this request with this TTL: in its ring, in its
    retries, or as its first. -/
inductive SearchThread.Asks (n : Node) (t : SearchThread) (rreq : RreqHeader) :
    BitVec 11 → SearchStage → Prop where
  | ring (ttl : U32) (hle : ttl ≤ ttlThreshold)
      (hstage : t.stage = .ring rreq ttl ∨ (t.stage = .starting ∧
        ∃ e, n.getRoutingEntry t.dest = some e ∧
          rreq = searchRequest n.ipAddress n.sequenceNum e ∧ ttl = startTtl e)) :
      Asks n t rreq (ttl.setWidth 11) (.ring rreq (ttl + ttlIncrement))
  | retry (i : Nat)
      (hstage : t.stage = .retry rreq i ∨ (∃ ttl, t.stage = .ring rreq ttl) ∨
        (t.stage = .starting ∧ ∃ e, n.getRoutingEntry t.dest = some e ∧
          rreq = searchRequest n.ipAddress n.sequenceNum e)) :
      Asks n t rreq ((toU32 netDiameter).setWidth 11) (.retry rreq (i + 1))

/-- What an operation finds when the handler of an event performs it. -/
def Op.Guard (event : Event) : Op → Node → Prop
  | create _ _ _ _ _ hopCount _, _ => event.installs = true ∧ hopCount.toNat < 256
  | previousHop env senderIp listed new, n =>
    ((∃ m, event = .control senderIp (.rreq m) ∧ listed = m.srcIp) ∨
        ∃ m, event = .control senderIp (.rrep m) ∧ listed = m.destIp) ∧
      (new = true → n.Fresh env senderIp 0 .seqInvalid senderIp 0 (toU32 activeRouteTimeout))
  | reverseRoute env senderIp m new, n =>
    (∃ m₀, event = .control senderIp (.rreq m₀) ∧ m = incrementHopRreq m₀) ∧
      (new = true → n.Fresh env m.srcIp m.srcSeq .seqValid senderIp (m.hopCount.setWidth 32) 0)
  | hello env m new, n =>
    ∃ senderIp, (∃ m₀, event = .control senderIp (.rrep m₀) ∧ m = incrementHopRrep m₀) ∧
      (new = true →
        n.Fresh env m.destIp m.destSeq .seqValid senderIp (m.hopCount.setWidth 32) m.lifetime)
  | forwardRoute env senderIp m new, n =>
    (∃ m₀, event = .control senderIp (.rrep m₀) ∧ m = incrementHopRrep m₀) ∧
      (new = true →
        n.Fresh env m.destIp m.destSeq .seqValid senderIp (m.hopCount.setWidth 32) m.lifetime)
  | breakRoute _ ip destSeq, n =>
    ∃ senderIp header pairs e, event = .control senderIp (.rerr header pairs) ∧
      (ip, destSeq) ∈ rerrPairs header.destCount pairs ∧
      n.getRoutingEntry ip = some e ∧ e.goesThrough senderIp = true
  | linkBreak _ _, _ => ∃ src dest, event = .forwarded src dest
  | expireRoute _ ip, n =>
    event = .expire ip ∧ ∃ e, n.getRoutingEntry ip = some e ∧ e.expirationThread = true ∧
      e.status = .routeValid
  | outgoingBreak _ ip, n => ∃ e, n.routes.slots (slotOf ip) = some e ∧ e.isActive = true
  | removeEntry ip, n =>
    event = .expire ip ∧ ∃ e, n.getRoutingEntry ip = some e ∧ e.expirationThread = true ∧
      e.status = .routeInvalid
  | searchFound ip, n => ∃ s m, event = .control s (.rrep m) ∧ ip = m.destIp ∧ m.srcIp = n.ipAddress
  | startSearch ip, n =>
    event = .outgoing ip ∧ ∃ e, n.getRoutingEntry ip = some e ∧ e.expirationThread = false ∧
      e.rreqSearch ≠ .searchSearching
  | beginWait ip, n => event = .outgoing ip ∧ ∃ e, n.getRoutingEntry ip = some e
  | moveWaiter k stage, _ => event = .wait k ∧ stage ≠ .waiting
  | moveHello stage, n => stage = .sleeping → n.activeRoutes ≠ 0
  | write _ .searchNone, _ => ∃ k, event = .wait k
  | write ip .stopTimer, _ => event = .outgoing ip
  | write _ (.precursor _), n =>
    (∃ s m, event = .control s (.rreq m)) ∨
      ∃ s m, event = .control s (.rrep m) ∧ m.srcIp ≠ 0 ∧ m.srcIp ≠ n.ipAddress
  | searchFailed _ id ip, n => event = .search id ∧ n.Searches id ip
  | sendRreq id rreq ttl stage, n =>
    event = .search id ∧ ∃ t ∈ n.threads, t.id = id ∧ t.Asks n rreq ttl stage
  | sendUnicast dest packet, n => Unicasts event n dest packet
  | sendBroadcast packet, n => Broadcasts event n packet
  | _, _ => True

/-- A handler performs its operations under their guards. -/
abbrev Handler.Guarded (event : Event) (h : Handler) (n : Node) : Prop :=
  h.Meets Op.apply (Op.Guard event) n

/-- `create_or_get_routing_entry` has set `new`: the entry is the fresh one. -/
theorem fresh_of_isNew (env : Env) (ip s : U32) (v : SeqValid) (h c t : U32) (n : Node)
    (hnew : n.isNew ip = true) :
    (n.createOrGetRoutingEntry env ip s v h c t).Fresh env ip s v h c t := by
  unfold Node.isNew at hnew
  rw [Node.getRoutingEntry_eq, Option.isNone_iff_eq_none] at hnew
  unfold Node.Fresh
  rw [Node.createOrGet_slots, if_pos rfl, hnew, Option.getD_none]

/-- A hop count taken from a message fits the eight bits of the field. -/
theorem hopField_lt (hopCount : Byte) : (hopCount.setWidth 32 : U32).toNat < 256 := by
  rw [BitVec.toNat_setWidth]
  exact Nat.lt_of_le_of_lt (Nat.mod_le _ _) hopCount.isLt

/-! ### The handlers -/

section Handlers

variable {event : Event}

theorem previousHopSection_guard (env : Env) (s l : U32) (next : Handler)
    (hevent : (∃ m, event = .control s (.rreq m) ∧ l = m.srcIp) ∨
      ∃ m, event = .control s (.rrep m) ∧ l = m.destIp)
    (hnext : ∀ n, next.Guarded event n) (n : Node) :
    (previousHopSection env s l next).Guarded event n := by
  have hinstalls : event.installs = true := by
    rcases hevent with ⟨m, rfl, -⟩ | ⟨m, rfl, -⟩ <;> rfl
  exact ⟨⟨hinstalls, by decide⟩,
    ⟨hevent, fun hnew => fresh_of_isNew env s 0 .seqInvalid s 0 _ n hnew⟩, hnext _⟩

/-- What is found after a plain write. -/
theorem write_getRoutingEntry (ip : U32) (w : Write) (n : Node) :
    ((Op.write ip w).apply n).getRoutingEntry ip = (n.getRoutingEntry ip).map w.apply := by
  rw [Node.getRoutingEntry_eq, apply_slots]
  exact if_pos rfl

/-- Who has just been added is a precursor. -/
theorem mem_precursorList_of_write (ip p : U32) (n : Node) (e : RoutingEntry)
    (he : ((Op.write ip (.precursor p)).apply n).getRoutingEntry ip = some e) :
    p ∈ e.precursorList := by
  rw [write_getRoutingEntry] at he
  rcases Option.map_eq_some_iff.mp he with ⟨e₀, -, rfl⟩
  exact List.mem_append_right _ List.mem_cons_self

theorem sendRrepDestination_guard (env : Env) (m : RreqHeader) (s : U32) (next : Handler)
    (hevent : event = .control s (.rreq m)) (hnext : ∀ n, next.Guarded event n) (n : Node)
    (hown : m.destIp = n.ipAddress) :
    (sendRrepDestination env (incrementHopRreq m) s next).Guarded event n :=
  ⟨trivial, .ownReply env m hevent hown, hnext _⟩

theorem sendRrepIntermediate_guard (env : Env) (m : RreqHeader) (s : U32) (next : Handler)
    (hevent : event = .control s (.rreq m)) (hnext : ∀ n, next.Guarded event n) (n : Node)
    (hother : m.destIp ≠ n.ipAddress)
    (hanswers : (n.getRoutingEntry (incrementHopRreq m).destIp).any
      (answersFromTable (incrementHopRreq m)) = true) :
    (sendRrepIntermediate env (incrementHopRreq m) s next).Guarded event n := by
  refine ⟨Or.inl ⟨s, m, hevent⟩, ?_⟩
  simp only [Prog.Meets]
  rw [write_getRoutingEntry]
  have hwritten := write_getRoutingEntry (incrementHopRreq m).destIp (.precursor s) n
  cases he : n.getRoutingEntry (incrementHopRreq m).destIp with
  | none =>
      rw [he] at hanswers
      exact absurd hanswers Bool.false_ne_true
  | some e =>
      rw [he] at hanswers hwritten
      -- The neighbour that asked is listed as a precursor before the reply is sent.
      have hprecursor := mem_precursorList_of_write m.destIp s n _ hwritten
      refine ⟨.tableReply env m _ hevent hother hwritten hanswers hprecursor,
        Or.inl ⟨s, m, hevent⟩, ?_⟩
      by_cases hf : (incrementHopRreq m).flags ≠ 0
      · rw [if_pos hf]
        refine ⟨.gratuitousReply env s m hevent hother (fun o ho => ?_), hnext _⟩
        exact mem_precursorList_of_write m.srcIp _ _ o ho
      · rw [if_neg hf]
        exact hnext _

theorem answerOrForward_guard (env : Env) (s : U32) (m : RreqHeader)
    (hevent : event = .control s (.rreq m)) (n : Node) (hother : m.destIp ≠ n.ipAddress) :
    (answerOrForward env s (incrementHopRreq m)).Guarded event n := by
  simp only [answerOrForward, Handler.Guarded, Prog.Meets]
  by_cases hans : (n.getRoutingEntry (incrementHopRreq m).destIp).any
      (answersFromTable (incrementHopRreq m)) = true
  · rw [if_pos hans]
    exact sendRrepIntermediate_guard env m s acceptPacket hevent (fun _ => trivial) n hother hans
  · rw [if_neg hans]
    by_cases httl : (incrementHopRreq m).ttl ≤ 1
    · rw [if_pos httl]
      trivial
    · rw [if_neg httl]
      exact ⟨.request s m hevent httl, trivial⟩

theorem afterReverseRoute_guard (env : Env) (s : U32) (m : RreqHeader)
    (hevent : event = .control s (.rreq m)) (n : Node) :
    (afterReverseRoute env s (incrementHopRreq m) n).Guarded event n := by
  unfold afterReverseRoute
  by_cases hown : n.ipAddress = (incrementHopRreq m).destIp
  · rw [if_pos hown]
    refine ⟨trivial, sendRrepDestination_guard env m s acceptPacket hevent (fun _ => trivial) _ ?_⟩
    rw [apply_ipAddress]
    exact hown.symm
  · rw [if_neg hown]
    exact answerOrForward_guard env s m hevent n (Ne.symm hown)

theorem recvNewRreq_guard (env : Env) (s : U32) (m : RreqHeader)
    (hevent : event = .control s (.rreq m)) (n : Node) :
    (recvNewRreq env s (incrementHopRreq m)).Guarded event n :=
  ⟨⟨hevent ▸ rfl, hopField_lt _⟩, ⟨⟨m, hevent, rfl⟩,
    fun hnew => fresh_of_isNew env m.srcIp m.srcSeq .seqValid s _ 0 n hnew⟩,
    afterReverseRoute_guard env s m hevent _⟩

theorem recvRreq_guard (env : Env) (s : U32) (m : RreqHeader)
    (hevent : event = .control s (.rreq m)) (n : Node) : (recvRreq env s m).Guarded event n := by
  refine previousHopSection_guard env s _ _ (Or.inl ⟨m, hevent, rfl⟩) (fun n => ?_) n
  simp only [Handler.Guarded, Prog.Meets]
  by_cases hown : m.srcIp = n.ipAddress
  · rw [if_pos hown]
    trivial
  · rw [if_neg hown]
    by_cases hdup : (n.getRoutingEntry m.srcIp).any (isDuplicate n.ipAddress m) = true
    · rw [if_pos hdup]
      trivial
    · rw [if_neg hdup]
      exact recvNewRreq_guard env s m hevent n

theorem recvHello_guard (env : Env) (s : U32) (m : RrepHeader)
    (hevent : event = .control s (.rrep m)) (n : Node) :
    (recvHello env s (incrementHopRrep m)).Guarded event n :=
  ⟨⟨hevent ▸ rfl, hopField_lt _⟩, ⟨s, ⟨m, hevent, rfl⟩,
    fun hnew => fresh_of_isNew env m.destIp m.destSeq .seqValid s _ _ n hnew⟩, trivial⟩

theorem forwardRrep_guard (s : U32) (m : RrepHeader) (next : Handler)
    (hevent : event = .control s (.rrep m)) (hasked : m.srcIp ≠ 0)
    (hnext : ∀ n, next.Guarded event n) (n : Node) (hother : m.srcIp ≠ n.ipAddress) :
    (forwardRrep (incrementHopRrep m) next).Guarded event n := by
  simp only [forwardRrep, Handler.Guarded, Prog.Meets]
  by_cases horig : (n.getRoutingEntry (incrementHopRrep m).srcIp).isSome = true
  · rw [if_pos horig]
    -- The node keeps its address while it lists the two next hops.
    have hactivated : m.srcIp ≠ ((Op.activate m.srcIp).apply n).ipAddress := by
      rw [apply_ipAddress]
      exact hother
    have hlisted : m.srcIp ≠ ((Op.write m.srcIp (.precursor (Node.nextHopOf m.destIp
        ((Op.activate m.srcIp).apply n)))).apply ((Op.activate m.srcIp).apply n)).ipAddress := by
      rw [apply_ipAddress]
      exact hactivated
    refine ⟨trivial, Or.inr ⟨s, m, hevent, hasked, hactivated⟩,
      Or.inr ⟨s, m, hevent, hasked, hlisted⟩, .passedOn s m hevent hasked (fun e he => ?_),
      hnext _⟩
    exact mem_precursorList_of_write m.destIp _ _ e he
  · rw [if_neg horig]
    exact hnext n

theorem afterForwardRoute_guard (s : U32) (m : RrepHeader)
    (hevent : event = .control s (.rrep m)) (hasked : m.srcIp ≠ 0) (n : Node) :
    (afterForwardRoute (incrementHopRrep m)).Guarded event n := by
  refine ⟨trivial, ?_⟩
  simp only []
  split
  · rename_i hother
    exact forwardRrep_guard s m (.unlock (slotOf m.destIp) acceptPacket) hevent hasked
      (fun _ => trivial) _ (Ne.symm hother)
  · trivial

theorem installForwardRoute_guard (env : Env) (s : U32) (m : RrepHeader)
    (hevent : event = .control s (.rrep m)) (hasked : m.srcIp ≠ 0) (n : Node) :
    (installForwardRoute env s (incrementHopRrep m)).Guarded event n :=
  ⟨⟨hevent ▸ rfl, hopField_lt _⟩, ⟨⟨m, hevent, rfl⟩,
    fun hnew => fresh_of_isNew env m.destIp m.destSeq .seqValid s _ _ n hnew⟩,
    afterForwardRoute_guard s m hevent hasked _⟩

theorem publishFound_guard (s : U32) (m : RrepHeader) (next : Handler)
    (hevent : event = .control s (.rrep m)) (hnext : ∀ n, next.Guarded event n) (n : Node) :
    (publishFound m next).Guarded event n := by
  simp only [publishFound, Handler.Guarded, Prog.Meets]
  by_cases hown : n.ipAddress = m.srcIp ∧ (n.getRoutingEntry m.destIp).isSome = true
  · rw [if_pos hown]
    exact ⟨⟨s, m, hevent, rfl, hown.1.symm⟩, hnext _⟩
  · rw [if_neg hown]
    exact hnext n

theorem recvRrep_guard (env : Env) (s : U32) (m : RrepHeader)
    (hevent : event = .control s (.rrep m)) (n : Node) : (recvRrep env s m).Guarded event n := by
  refine publishFound_guard s m _ hevent (fun n => ?_) n
  by_cases hhello : m.srcIp = 0
  · rw [if_pos hhello]
    exact recvHello_guard env s m hevent n
  · rw [if_neg hhello]
    exact previousHopSection_guard env s _ _ (Or.inr ⟨m, hevent, rfl⟩)
      (fun n => installForwardRoute_guard env s m hevent hhello n) n

theorem isValid_of_slot (n : Node) (ip : U32) (e : RoutingEntry)
    (h : n.getRoutingEntry ip = some e) : n.isValid ip = decide (e.status = .routeValid) := by
  unfold Node.isValid
  rw [h]
  rfl

theorem goesThrough_valid (senderIp : U32) (e : RoutingEntry) (h : e.goesThrough senderIp = true) :
    e.nextHop = senderIp ∧ e.status = .routeValid := by
  simpa only [RoutingEntry.goesThrough, Bool.and_eq_true, decide_eq_true_eq] using h

/-- The packet is a RERR, or the attempt at one that has no destinations. -/
def Packet.IsError : Packet → Prop
  | rerr _ _ | null _ => True
  | _ => False

theorem rerrPacket_error (l : RerrLocals) : l.packet.IsError := by
  unfold RerrLocals.packet
  split <;> trivial

theorem breakPacket_error (env : Env) (l : BreakLocals) : (l.packet env).IsError := by
  unfold BreakLocals.packet
  split <;> trivial

theorem rerrSend_guard (target : RerrTarget) (packet : Packet) (n : Node)
    (h : packet.IsError) : (target.send packet).Guard event n := by
  unfold RerrTarget.send
  cases packet with
  | rerr header words =>
      split
      · exact .error header words
      · exact .error header words
  | null length =>
      split
      · exact .noError length
      · exact .noError length
  | rreq | rrep | timing => exact absurd h id

theorem rerrLoop_guard (env : Env) (s : U32) (header : RerrHeader) (destPairs : Nat → U32)
    (hevent : event = .control s (.rerr header destPairs)) (pairs : List (U32 × U32))
    (hpairs : ∀ p ∈ pairs, p ∈ rerrPairs header.destCount destPairs) (l : RerrLocals) (n : Node) :
    (rerrLoop env s pairs l).Guarded event n := by
  -- The pairs left are still pairs of the message, which is what each break needs.
  induction pairs generalizing l n with
  | nil =>
      unfold rerrLoop
      split
      · trivial
      · exact ⟨rerrSend_guard _ _ _ (rerrPacket_error l), trivial⟩
  | cons pair rest ih =>
      have hrest := ih (fun p hp => hpairs p (List.mem_cons_of_mem _ hp))
      simp only [rerrLoop, Handler.Guarded, Prog.Meets]
      cases hfound : n.getRoutingEntry pair.1 with
      | none => exact hrest l n
      | some e =>
          simp only []
          by_cases hthrough : e.goesThrough s = true
          · rw [if_pos hthrough]
            exact ⟨⟨s, header, destPairs, e, hevent, hpairs pair List.mem_cons_self, hfound,
              hthrough⟩, hrest _ _⟩
          · rw [if_neg hthrough]
            exact hrest l n

theorem start_guard (dest : U32) (hevent : event = .outgoing dest) (n : Node) (e : RoutingEntry)
    (he : n.getRoutingEntry dest = some e) (htimer : e.expirationThread = false)
    (hsearch : e.rreqSearch ≠ .searchSearching) :
    (locked dest (.startSearch dest)
      (.op (.beginWait dest) fun _ _ => .ret .waits)).Guarded event n := by
  refine ⟨⟨hevent, e, he, htimer, hsearch⟩, ⟨hevent, ?_⟩, trivial⟩
  -- The entry is still there when the call begins to wait.
  rw [Node.getRoutingEntry_eq] at he
  rw [Node.getRoutingEntry_eq, apply_slots, he]
  simp only [Op.effect, Effect.slot, if_true]
  exact ⟨_, rfl⟩

theorem startOrJoin_guard (dest : U32) (hevent : event = .outgoing dest) (new : Bool) (n : Node)
    (hnew : new = true → ∀ e, n.getRoutingEntry dest = some e → e.expirationThread = false) :
    (startOrJoin dest new n).Guarded event n := by
  unfold startOrJoin
  cases he : n.getRoutingEntry dest with
  | none => trivial
  | some e =>
      simp only []
      split
      · trivial
      · by_cases hsearch : e.rreqSearch = .searchSearching
        · rw [if_pos hsearch]
          exact ⟨⟨hevent, e, he⟩, trivial⟩
        · rw [if_neg hsearch]
          cases new with
          | true => exact start_guard dest hevent n e he (hnew rfl e he) hsearch
          | false =>
              -- The entry was there already, so its timer is stopped before the search begins.
              have hstopped : ((Op.write dest .stopTimer).apply n).getRoutingEntry dest =
                  some { e with expirationThread := false } := by
                rw [Node.getRoutingEntry_eq] at he
                rw [Node.getRoutingEntry_eq, apply_slots]
                simp only [Op.effect, Effect.slot, if_true, he]
                rfl
              exact ⟨hevent, start_guard dest hevent _ _ hstopped rfl hsearch⟩

theorem sendRreq_guard (env : Env) (dest : U32) (hevent : event = .outgoing dest) (n : Node) :
    (sendRreq env dest).Guarded event n := by
  refine ⟨⟨hevent ▸ rfl, by decide⟩, startOrJoin_guard dest hevent _ _ (fun hnew e he => ?_)⟩
  -- A fresh entry has no timer.
  have hfresh := fresh_of_isNew env dest 0 .seqInvalid 0 0 (toU32 myRouteTimeout) n hnew
  rw [Node.getRoutingEntry_eq] at he
  cases hfresh.symm.trans he
  rfl

theorem waiterStep_guard (env : Env) (k : Nat) (hevent : event = .wait k) (n : Node) :
    (waiterStep env k).Guarded event n := by
  simp only [waiterStep, Handler.Guarded, Prog.Meets]
  cases n.waiters[k]? with
  | none => trivial
  | some w =>
      simp only []
      split
      · split
        · trivial
        · exact ⟨⟨hevent, by simp⟩, trivial⟩
      · exact ⟨⟨hevent, by simp⟩, .timing, trivial⟩
      · split
        · exact ⟨trivial, ⟨hevent, by simp⟩, trivial⟩
        · exact ⟨⟨k, hevent⟩, ⟨hevent, by simp⟩, trivial⟩
      · trivial

theorem retryStep_guard (env : Env) (t : SearchThread) (rreq : RreqHeader) (i : Nat) (n : Node)
    (hevent : event = .search t.id) (ht : t ∈ n.threads)
    (hstage : t.stage = .retry rreq i ∨ (∃ ttl, t.stage = .ring rreq ttl) ∨
      (t.stage = .starting ∧ ∃ e, n.getRoutingEntry t.dest = some e ∧
        rreq = searchRequest n.ipAddress n.sequenceNum e)) :
    (retryStep env t rreq i).Guarded event n := by
  unfold retryStep
  by_cases hi : i ≤ rreqRetries
  · rw [if_pos hi]
    exact ⟨⟨hevent, t, ht, rfl, .retry i hstage⟩, trivial⟩
  · rw [if_neg hi]
    exact ⟨⟨hevent, t, ht, rfl, rfl⟩, trivial⟩

theorem ringStep_guard (env : Env) (t : SearchThread) (rreq : RreqHeader) (ttl : U32) (n : Node)
    (hevent : event = .search t.id) (ht : t ∈ n.threads)
    (hstage : t.stage = .ring rreq ttl ∨ (t.stage = .starting ∧
      ∃ e, n.getRoutingEntry t.dest = some e ∧
        rreq = searchRequest n.ipAddress n.sequenceNum e ∧ ttl = startTtl e)) :
    (ringStep env t rreq ttl).Guarded event n := by
  unfold ringStep
  by_cases httl : ttl ≤ ttlThreshold
  · rw [if_pos httl]
    exact ⟨⟨hevent, t, ht, rfl, .ring ttl httl hstage⟩, trivial⟩
  · rw [if_neg httl]
    refine retryStep_guard env t rreq 0 n hevent ht (Or.inr ?_)
    rcases hstage with hring | ⟨hstart, e, he, hreq, -⟩
    · exact Or.inl ⟨ttl, hring⟩
    · exact Or.inr ⟨hstart, e, he, hreq⟩

theorem searchThreadStep_guard (env : Env) (id : Nat) (hevent : event = .search id) (n : Node) :
    (searchThreadStep env id).Guarded event n := by
  simp only [searchThreadStep, Handler.Guarded, Prog.Meets]
  cases hfind : n.threads.find? (fun t => t.id = id) with
  | none => trivial
  | some t =>
      have ht : t ∈ n.threads := List.mem_of_find?_eq_some hfind
      have hid : t.id = id := by simpa only [decide_eq_true_eq] using List.find?_some hfind
      rw [← hid] at hevent
      simp only []
      -- A thread goes on where its last step left it.
      cases hstage : t.stage with
      | starting =>
          refine ⟨trivial, ?_⟩
          simp only [Prog.Meets]
          cases he : (Op.incrementSequenceNum.apply n).getRoutingEntry t.dest with
          | none => trivial
          | some e =>
              exact ringStep_guard env t _ _ _ hevent ht (Or.inr ⟨hstage, e, he, rfl, rfl⟩)
      | ring rreq ttl => exact ringStep_guard env t rreq ttl n hevent ht (Or.inl hstage)
      | retry rreq i => exact retryStep_guard env t rreq i n hevent ht (Or.inl hstage)

theorem outgoingMessage_guard (env : Env) (dest : U32)
    (hevent : event = .outgoing dest) (n : Node) :
    (outgoingMessage env dest).Guarded event n := by
  simp only [outgoingMessage, Handler.Guarded, Prog.Meets]
  split
  · trivial
  · cases hfound : n.getRoutingEntry dest with
    | none => exact sendRreq_guard env dest hevent n
    | some e =>
        simp only []
        split
        · exact ⟨trivial, trivial⟩
        · split
          · trivial
          · split
            · exact ⟨⟨e, hfound, ‹_›⟩, sendRreq_guard env dest hevent _⟩
            · exact sendRreq_guard env dest hevent n

theorem forwardedError_guard (dest destSeq : U32) (n : Node) :
    (forwardedError dest destSeq).Guarded event n := ⟨.error _ _, trivial⟩

theorem breakLoop_guard (env : Env) (src dest : U32) (hevent : event = .forwarded src dest)
    (list : List U32) (l : BreakLocals) (n : Node) :
    (breakLoop env dest list l).Guarded event n := by
  induction list generalizing l n with
  | nil => exact ⟨rerrSend_guard _ _ _ (breakPacket_error env l), trivial⟩
  | cons ip rest ih =>
      simp only [breakLoop, Handler.Guarded, Prog.Meets]
      split
      · exact ⟨⟨src, dest, hevent⟩, ih _ _⟩
      · exact ih l n

theorem forwardedPass_guard (env : Env) (src dest : U32) (srcEntry : Bool) (n : Node) :
    (forwardedPass env src dest srcEntry).Guarded event n := by
  cases srcEntry with
  | false => exact ⟨trivial, trivial⟩
  | true => exact ⟨trivial, trivial, trivial⟩

theorem forwardedBreak_guard (env : Env) (src dest hopIp : U32)
    (hevent : event = .forwarded src dest) (n : Node) :
    (forwardedBreak env dest hopIp).Guarded event n := by
  simp only [forwardedBreak, Handler.Guarded, Prog.Meets]
  cases n.getRoutingEntry hopIp with
  | none => trivial
  | some e => exact ⟨trivial, breakLoop_guard env src dest hevent _ _ _⟩

theorem forwardedOver_guard (env : Env) (src dest hopIp : U32) (srcEntry other : Bool)
    (hevent : event = .forwarded src dest) (n : Node) :
    (forwardedOver env src dest hopIp srcEntry other).Guarded event n := by
  simp only [forwardedOver, Handler.Guarded, Prog.Meets]
  split
  · cases other with
    | false => exact forwardedPass_guard env src dest srcEntry n
    | true => exact forwardedPass_guard env src dest srcEntry n
  · split
    · exact forwardedBreak_guard env src dest hopIp hevent n
    · exact forwardedError_guard dest _ n

theorem forwardedMessages_guard (env : Env) (src dest : U32) (hevent : event = .forwarded src dest)
    (n : Node) : (forwardedMessages env src dest).Guarded event n := by
  simp only [forwardedMessages, Handler.Guarded, Prog.Meets]
  split
  · simp only [Prog.Meets]
    split
    · exact forwardedError_guard dest 0 n
    · split
      · exact forwardedError_guard dest _ n
      · split
        · exact forwardedOver_guard env src dest _ _ true hevent n
        · exact forwardedOver_guard env src dest _ _ false hevent n
  · exact forwardedError_guard dest 0 n

theorem expirationFunc_guard (env : Env) (ip : U32) (hevent : event = .expire ip) (n : Node) :
    (expirationFunc env ip).Guarded event n := by
  simp only [expirationFunc, Handler.Guarded, Prog.Meets]
  -- A thread whose timer was stopped in the meantime does nothing.
  by_cases hrunning : (n.getRoutingEntry ip).any (·.expirationThread) = true
  · rw [if_pos hrunning]
    simp only [Prog.Meets]
    cases he : n.getRoutingEntry ip with
    | none =>
        rw [he] at hrunning
        exact absurd hrunning Bool.false_ne_true
    | some e =>
        rw [he, Option.any_some] at hrunning
        rw [isValid_of_slot n ip e he]
        cases hs : e.status with
        | routeValid => exact ⟨⟨hevent, e, he, hrunning, hs⟩, trivial⟩
        | routeInvalid => exact ⟨⟨hevent, e, he, hrunning, hs⟩, trivial⟩
  · rw [if_neg hrunning]
    trivial

end Handlers

/-- Every handler performs its operations under their guards. -/
theorem handler_guard (n : Node) (input : Input) : input.handler.Guarded input.event n := by
  cases input with
  | mk env event =>
      cases event with
      | control src message =>
          refine incomingControlMessage_meets n env src _ message (fun _ => ?_)
          cases message with
          | rreq m => exact recvRreq_guard env src m rfl n
          | rrep m => exact recvRrep_guard env src m rfl n
          | rerr m destPairs =>
              exact rerrLoop_guard env src m destPairs rfl _ (fun _ hp => hp) _ n
      | data src dest => exact incomingDataMessage_meets n env _ src dest fun _ => trivial
      | outgoing dest => exact outgoingMessage_guard env dest rfl n
      | forwarded src dest => exact forwardedMessages_guard env src dest rfl n
      | search id => exact searchThreadStep_guard env id rfl n
      | wait k => exact waiterStep_guard env k rfl n
      | expire ip => exact expirationFunc_guard env ip rfl n
      | rreqIdExpire ip => exact rreqIdFunc_meets n _ ip trivial
      | hello =>
          exact helloInterval_meets n _ (fun hactive _ => hactive) .hello fun _ hstage => by
            cases hstage

/-- What every operation keeps, performed under its guard and under a condition,
    holds in every state a run under the condition reaches. -/
theorem node_invariant_guarded (ok : Op → Node → Prop) (inv : Node → Prop)
    (hop : ∀ event (o : Op) n, inv n → o.Guard event n → ok o n → inv (o.apply n)) (n : Node)
    (inputs : List Input) (hn : inv n) (hok : AllSteps step (OpsMeet ok) n inputs) :
    inv (run step n inputs) :=
  run_invariant step (OpsMeet ok) inv
    (fun n input hn hok => Prog.exec_invariant Op.apply 
      (fun o n => o.Guard input.event n ∧ ok o n) inv
      (fun o n hn h => hop input.event o n hn h.1 h.2) input.handler n hn
      (Prog.Meets.and input.handler n (handler_guard n input) hok))
    n inputs hn hok

end OpenManet
