import OpenManet.Core.Payload
import OpenManet.Theory.Requests
import OpenManet.Theory.Written

/-!
# What a Node Discloses

Two runs of a node over the same packets may differ in what fresh memory contains
and in what lies behind each buffer. If every byte sent was written before, they
send the same.

They do not. The prefix size of a RREP is never assigned, so every RREP a node
originates carries five bits of fresh memory, hellos included; an answer from the
table is sent with the length of a RREQ and carries four bytes from behind its
buffer; the duplicate check reads the `rreq_id` of an entry no request has been
recorded in, and drops or keeps a request by it; a link break leaves a hole in
its array of pairs; and a message shorter than its header is read on behind its
end. `SendOk` says of an input that none of these happens. It looks at the packet
and at the node, never at the memory, and runs that meet it send the same.

## Main definitions

* `Transmission`, `Node.transmissions`: What a node has sent.
* `Complete`: A message as long as its header and counts say.
* `RequestOk`, `ForwardOk`, `SendOk`: Inputs that disclose nothing.

## Theorems

* `rawStep_written`: A step that discloses nothing projects.
* `transmissions_agree`: Runs of such steps send the same.
* `not_transmissions_agree_answer`: An answered request discloses memory.
-/

namespace OpenManet

/-- A packet of the protocol as it is sent: to one address or to everybody, with
    the length of the send and the bytes it covers, if there are any. -/
structure Transmission where
  target : Option U32
  length : Nat
  bytes : Option (List Byte)
  deriving DecidableEq, Repr

/-- What a call sends, if it sends a message of the protocol. -/
def ApiCall.transmission : ApiCall → Option Transmission
  | sendUnicast _ .timing | sendBroadcast .timing => none
  | sendUnicast dest packet => some ⟨some dest, packet.length, packet.bytes⟩
  | sendBroadcast packet => some ⟨none, packet.length, packet.bytes⟩
  | addUnicastRoutingEntry _ _ | deleteEntry _ _ => none

/-- What a node has sent, newest first. -/
def Node.transmissions (n : Node) : List Transmission := n.log.filterMap ApiCall.transmission

/-! ### Inputs that disclose nothing -/

/-- A message is as long as its type and its count of destinations say. -/
def Complete (payload : List Byte) : Prop :=
  4 ≤ payload.length ∧
    (payload[3]? = some rreqType → 24 ≤ payload.length) ∧
    (payload[3]? = some rrepType → 20 ≤ payload.length) ∧
    (payload[3]? = some rerrType → 4 + 8 * (payload.headD 0).toNat ≤ payload.length)

instance (payload : List Byte) : Decidable (Complete payload) :=
  inferInstanceAs (Decidable (_ ∧ _))

/-- Surroundings with clear memory. -/
def Env.at (now : Timespec) : Env := { now := now, memory := fun _ _ => 0 }

/-- The duplicate check, if it looks at an entry, looks at an id a request has
    written. -/
def RreqIdKnown (s : U32) (m : RreqHeader) (n : Node) : Prop :=
  match n.getRoutingEntry m.srcIp with
  | none => slotOf m.srcIp ≠ slotOf s
  | some e => e.rreqIdSet = true

instance (s : U32) (m : RreqHeader) (n : Node) : Decidable (RreqIdKnown s m n) := by
  unfold RreqIdKnown
  split <;> infer_instance

/-- The node after the reverse-route section. -/
def afterReverse (env : Env) (s : U32) (m : RreqHeader) (n : Node) : Node :=
  (Op.reverseRoute env s m (n.isNew m.srcIp)).apply
    ((Op.create env m.srcIp m.srcSeq .seqValid s (m.hopCount.setWidth 32) 0).apply n)

/-- The node is not the destination and has no answer in its table. -/
def AnswersNothing (now : Timespec) (s : U32) (m : RreqHeader) (n : Node) : Prop :=
  m.destIp ≠ n.ipAddress ∧
    ((afterReverse (.at now) s (incrementHopRreq m)
      (afterPreviousHop (.at now) s m.srcIp n)).getRoutingEntry m.destIp).any
        (answersFromTable m) = false

/-- A request the node drops knowing why, or has no answer to. -/
def RequestOk (now : Timespec) (s : U32) (m : RreqHeader) (n : Node) : Prop :=
  m.srcIp = n.ipAddress ∨ (RreqIdKnown s m n ∧ (dropped m n ∨ AnswersNothing now s m n))

instance (now : Timespec) (s : U32) (m : RreqHeader) (n : Node) :
    Decidable (RequestOk now s m n) := by
  unfold RequestOk dropped AnswersNothing
  infer_instance

/-- None of the destinations has precursors. -/
def NoPrecursors (list : List U32) (n : Node) : Prop :=
  ∀ ip ∈ list, ∀ e, n.getRoutingEntry ip = some e → e.precursorList = []

/-- A packet to forward, unless its valid route goes over an invalid next hop
    under which destinations with precursors are listed. -/
def ForwardOk (dest : U32) (n : Node) : Prop :=
  ∀ destination, n.getRoutingEntry dest = some destination → destination.status = .routeValid →
    ∀ hop, n.getRoutingEntry destination.nextHop = some hop → hop.status = .routeInvalid →
      NoPrecursors hop.nextHopFor n

instance (dest : U32) (n : Node) : Decidable (ForwardOk dest n) := by
  have hlist : ∀ list, Decidable (NoPrecursors list n) := fun list =>
    inferInstanceAs (Decidable (∀ ip ∈ list, ∀ e, n.getRoutingEntry ip = some e → _))
  have hhop : ∀ destination : RoutingEntry, Decidable (∀ hop,
      n.getRoutingEntry destination.nextHop = some hop → hop.status = .routeInvalid →
        NoPrecursors hop.nextHopFor n) := fun destination => inferInstance
  unfold ForwardOk
  infer_instance

/-- The input discloses nothing. -/
def SendOk (n : Node) (input : RawInput) : Prop :=
  match input.event with
  | .received src payload =>
    src = n.ipAddress ∨ (Complete payload ∧
      (payload[3]? = some rreqType →
        RequestOk input.now src (readRreq (payloadBytes payload fun _ => 0)) n))
  | .forwarded _ dest => ForwardOk dest n
  | .hello => n.helloStage = .spinning
  | _ => True

instance (n : Node) (input : RawInput) : Decidable (SendOk n input) := by
  rcases input with ⟨now, event⟩
  cases event <;> unfold SendOk <;> infer_instance

/-! ### Reading a message -/

theorem payloadBytes_lt (payload : List Byte) (behind behind' : Nat → Byte) (k : Nat)
    (h : k < payload.length) : payloadBytes payload behind k = payloadBytes payload behind' k := by
  unfold payloadBytes
  rw [List.getD_eq_getElem?_getD, List.getD_eq_getElem?_getD, List.getElem?_eq_getElem h,
    Option.getD_some, Option.getD_some]

theorem wordAt_payload (payload : List Byte) (behind behind' : Nat → Byte) (i : Nat)
    (h : 4 * i + 4 ≤ payload.length) :
    wordAt (payloadBytes payload behind) i = wordAt (payloadBytes payload behind') i := by
  unfold wordAt
  rw [payloadBytes_lt payload behind behind' _ (by omega : 4 * i + 3 < _),
    payloadBytes_lt payload behind behind' _ (by omega : 4 * i + 2 < _),
    payloadBytes_lt payload behind behind' _ (by omega : 4 * i + 1 < _),
    payloadBytes_lt payload behind behind' _ (by omega : 4 * i < _)]

/-- The count of a RERR is its first byte. -/
theorem readRerr_destCount (bytes : Nat → Byte) : (readRerr bytes).destCount = bytes 0 := by
  show (wordAt bytes 0).extractLsb' 0 8 = bytes 0
  unfold wordAt
  ext i hi
  simp only [BitVec.getElem_extractLsb', BitVec.getLsbD_append]
  grind

/-- Two messages the handlers do the same upon. -/
def SameMessage : ControlMessage → ControlMessage → Prop
  | .rreq m, .rreq m' => m = m'
  | .rrep m, .rrep m' => m = m'
  | .rerr m destPairs, .rerr m' destPairs' =>
    m = m' ∧ rerrPairs m.destCount destPairs = rerrPairs m'.destCount destPairs'
  | _, _ => False

section Complete

variable (payload : List Byte) (behind : Nat → Byte)

/-- The type byte of a message that has one. -/
theorem payload_type (t : Byte) (h : 4 ≤ payload.length)
    (ht : payloadBytes payload behind 3 = t) : payload[3]? = some t := by
  rw [← ht]
  unfold payloadBytes
  have h3 : 3 < payload.length := by omega
  rw [List.getD_eq_getElem?_getD, List.getElem?_eq_getElem h3, Option.getD_some]

theorem readMessage_eq_rreq (bytes : Nat → Byte) (m : RreqHeader)
    (h : readMessage bytes = some (.rreq m)) : bytes 3 = rreqType ∧ m = readRreq bytes := by
  unfold readMessage at h
  split at h
  · rename_i htype
    simp only [Option.some.injEq, ControlMessage.rreq.injEq] at h
    exact ⟨htype, h.symm⟩
  · split at h
    · simp only [Option.some.injEq, reduceCtorEq] at h
    · split at h
      · simp only [Option.some.injEq, reduceCtorEq] at h
      · simp only [reduceCtorEq] at h

/-- What is read of a complete message is in it. -/
theorem readMessage_complete (h : Complete payload) :
    Option.Rel SameMessage (readMessage (payloadBytes payload behind))
      (readMessage (payloadBytes payload fun _ => 0)) := by
  rcases h with ⟨hlen, hrreq, hrrep, hrerr⟩
  have htype := payloadBytes_lt payload behind (fun _ => 0) 3 (by omega)
  have hword := wordAt_payload payload behind fun _ => 0
  unfold readMessage
  rw [htype]
  by_cases h1 : payloadBytes payload (fun _ => 0) 3 = rreqType
  · rw [if_pos h1, if_pos h1]
    -- Six words are read of a request, and that many have arrived.
    have hlong := hrreq (payload_type payload _ rreqType hlen h1)
    refine Option.Rel.some ?_
    show readRreq _ = readRreq _
    unfold readRreq
    rw [hword 0 (by omega), hword 1 (by omega), hword 2 (by omega), hword 3 (by omega),
      hword 4 (by omega), hword 5 (by omega)]
  · rw [if_neg h1, if_neg h1]
    by_cases h2 : payloadBytes payload (fun _ => 0) 3 = rrepType
    · rw [if_pos h2, if_pos h2]
      have hlong := hrrep (payload_type payload _ rrepType hlen h2)
      refine Option.Rel.some ?_
      show readRrep _ = readRrep _
      unfold readRrep
      rw [hword 0 (by omega), hword 1 (by omega), hword 2 (by omega), hword 3 (by omega),
        hword 4 (by omega)]
    · rw [if_neg h2, if_neg h2]
      by_cases h3 : payloadBytes payload (fun _ => 0) 3 = rerrType
      · rw [if_pos h3, if_pos h3]
        have hlong := hrerr (payload_type payload _ rerrType hlen h3)
        refine Option.Rel.some ⟨?_, ?_⟩
        · unfold readRerr
          rw [hword 0 (by omega)]
        · -- The number of pairs is in the first byte, which has arrived.
          have hcount : payloadBytes payload behind 0 = payload.headD 0 := by
            cases payload with
            | nil => exact absurd hlen (by decide)
            | cons b rest => rfl
          rw [readRerr_destCount, readRerr_destCount,
            ← payloadBytes_lt payload behind (fun _ => 0) 0 (by omega), hcount]
          refine List.map_congr_left (fun i hi => ?_)
          have hlt := List.mem_range.mp hi
          simp only [hword (2 * i + 1) (by omega), hword (2 * i + 1 + 1) (by omega)]
      · rw [if_neg h3, if_neg h3]
        exact Option.Rel.none

end Complete

/-! ### Requests -/

section Request

variable (env : Env) (s : U32) (m : RreqHeader) (n : Node)

theorem afterPreviousHop_written (l : U32) :
    (afterPreviousHop env s l n).written = afterPreviousHop env.blank s l n.written := by
  unfold afterPreviousHop
  rw [apply_written, apply_written, written_isNew]
  rfl

theorem afterReverse_written :
    (afterReverse env s m n).written = afterReverse env.blank s m n.written := by
  unfold afterReverse
  rw [apply_written, apply_written, written_isNew]
  rfl

/-- Whether the table has an answer does not depend on fresh memory. -/
theorem answers_eq (env' : Env) (n' : Node) (henv : env.blank = env'.blank)
    (hn : n.written = n'.written) :
    ((afterReverse env s m (afterPreviousHop env s m.srcIp n)).getRoutingEntry m.destIp).any
        (answersFromTable m) =
      ((afterReverse env' s m (afterPreviousHop env' s m.srcIp n')).getRoutingEntry m.destIp).any
        (answersFromTable m) := by
  have hany : ∀ n : Node, (n.getRoutingEntry m.destIp).any (answersFromTable m) =
      (n.written.getRoutingEntry m.destIp).any (answersFromTable m) := by
    intro n
    rw [written_getRoutingEntry, Option.any_map]
    rfl
  rw [hany, afterReverse_written, afterPreviousHop_written, henv, hn,
    hany (afterReverse env' _ _ _),
    afterReverse_written, afterPreviousHop_written]

/-- The duplicate check on an entry whose id has been written. -/
theorem isDuplicate_written (ip : U32) (e : RoutingEntry) (h : e.rreqIdSet = true) :
    isDuplicate ip m e.written = isDuplicate ip m e := by
  have hid : e.written.rreqId = e.rreqId := if_pos h
  unfold isDuplicate
  rw [hid]
  rfl

/-- What the duplicate check finds after the previous-hop section is what it would
    have found before, with the id written. -/
theorem originator_found (h : RreqIdKnown s m n) :
    (∀ e, (afterPreviousHop env s m.srcIp n).getRoutingEntry m.srcIp = some e →
      e.rreqIdSet = true) ∧
    ((afterPreviousHop env s m.srcIp n).getRoutingEntry m.srcIp).any (isDuplicate n.ipAddress m) =
      (n.getRoutingEntry m.srcIp).any (isDuplicate n.ipAddress m) := by
  unfold RreqIdKnown at h
  rw [afterPreviousHop_getRoutingEntry]
  -- The originator may share its slot with the previous hop, written to just before.
  by_cases hslot : slotOf m.srcIp = slotOf s
  · rw [if_pos hslot]
    cases he : n.getRoutingEntry m.srcIp with
    | none =>
        rw [he] at h
        exact absurd hslot h
    | some e =>
        rw [he] at h
        have hs : n.getRoutingEntry s = some e := by
          rw [← he, Node.getRoutingEntry_eq, Node.getRoutingEntry_eq, hslot]
        rcases previousHop_eq env (n.isNew s) (previousHopEntry env s n) m.srcIp with ⟨t, ht⟩
        have hentry : previousHopEntry env s n = e := by
          rw [previousHopEntry, hs, Option.getD_some]
        rw [ht, hentry]
        refine ⟨fun e' he' => ?_, rfl⟩
        rw [← Option.some.inj he']
        exact h
  · rw [if_neg hslot]
    refine ⟨fun e he => ?_, rfl⟩
    rw [he] at h
    exact h

theorem blind_answerOrForward
    (h : (n.getRoutingEntry m.destIp).any (answersFromTable m) = false) :
    Blind (answerOrForward env s m) (answerOrForward env.blank s m) n := by
  refine Prog.projects_read _ _ n ?_
  rw [written_getRoutingEntry]
  refine Prog.projects_ite _ _ _ _ _ _ n (by rw [Option.any_map]; rfl) (fun hanswer => ?_)
    (fun _ => ?_)
  · rw [h] at hanswer
    exact absurd hanswer Bool.false_ne_true
  refine Prog.projects_ite _ _ _ _ _ _ n Iff.rfl (fun _ => blind_ret _ n) (fun _ => ?_)
  have hforward : ∀ d : Option RoutingEntry,
      forwardedRreq m (d.map RoutingEntry.written) = forwardedRreq m d := by
    intro d
    cases d <;> rfl
  rw [hforward]
  exact blind_op (.sendBroadcast _) _ _ n (blind_ret _ _)

/-- A request for another node to which the table has no answer. -/
theorem blind_recvNewRreq (hdest : m.destIp ≠ n.ipAddress)
    (hanswer : ((afterReverse env s m n).getRoutingEntry m.destIp).any (answersFromTable m) =
      false) :
    Blind (recvNewRreq env s m) (recvNewRreq env.blank s m) n := by
  refine blind_op (.create env m.srcIp m.srcSeq .seqValid s (m.hopCount.setWidth 32) 0) _ _ n ?_
  rw [written_isNew]
  refine Prog.projects_lock _ _ _ _ _ (blind_op (.reverseRoute env s m _) _ _ _ ?_)
  refine Prog.projects_ite _ _ _ _ _ _ _ Iff.rfl (fun hown => ?_) (fun _ => ?_)
  · rw [apply_ipAddress, apply_ipAddress] at hown
    exact absurd hown.symm hdest
  · exact Prog.projects_unlock _ _ _ _ _ (blind_answerOrForward env s m _ hanswer)

theorem blind_recvRreq (h : RequestOk env.now s m n) :
    Blind (recvRreq env s m) (recvRreq env.blank s m) n := by
  refine blind_previousHopSection env n s m.srcIp _ _ (Prog.projects_read _ _ _ ?_)
  refine Prog.projects_ite _ _ _ _ _ _ _ Iff.rfl (fun _ => blind_ret _ _) (fun hother => ?_)
  rw [afterPreviousHop_ipAddress] at hother
  rcases h.resolve_left hother with ⟨hknown, hrest⟩
  rcases originator_found env s m n hknown with ⟨hset, hsame⟩
  -- Whether it is a duplicate is decided by an id that was written.
  have hdup : ((afterPreviousHop env s m.srcIp n).written.getRoutingEntry m.srcIp).any
      (isDuplicate (afterPreviousHop env s m.srcIp n).written.ipAddress m) =
      ((afterPreviousHop env s m.srcIp n).getRoutingEntry m.srcIp).any
        (isDuplicate (afterPreviousHop env s m.srcIp n).ipAddress m) := by
    rw [written_getRoutingEntry, Option.any_map]
    cases he : (afterPreviousHop env s m.srcIp n).getRoutingEntry m.srcIp with
    | none => rfl
    | some e => exact isDuplicate_written m _ e (hset e he)
  refine Prog.projects_ite _ _ _ _ _ _ _ (by rw [hdup]) (fun _ => blind_ret _ _) (fun hnew => ?_)
  rw [afterPreviousHop_ipAddress, hsame] at hnew
  have hanswer : AnswersNothing env.now s m n :=
    hrest.resolve_left (fun hdrop => hnew (hdrop.resolve_left hother))
  refine blind_recvNewRreq env s (incrementHopRreq m) _ ?_ ?_
  · rw [afterPreviousHop_ipAddress]
    exact hanswer.1
  · exact (answers_eq env s (incrementHopRreq m) n (.at env.now) n rfl rfl).trans hanswer.2

end Request

/-! ### Forwarded packets -/

/-- An operation that changes no list of precursors. -/
theorem noPrecursors_apply (list : List U32) (n : Node) (o : Op) (ip : U32)
    (f : RoutingEntry → RoutingEntry) (heff : o.effect n = .update ip f)
    (hf : ∀ e, (f e).precursorList = e.precursorList) (h : NoPrecursors list n) :
    NoPrecursors list (o.apply n) := by
  intro u hu e he
  rw [Node.getRoutingEntry_eq, apply_slots, heff] at he
  simp only [Effect.slot] at he
  split at he
  · rcases Option.map_eq_some_iff.mp he with ⟨e₀, he₀, rfl⟩
    rw [hf]
    exact h u hu e₀ he₀
  · exact h u hu e he

/-- The RERR of a link break that takes nobody with it holds the pair of the next
    hop, which is written. -/
theorem breakPacket_eq (env : Env) (l l' : BreakLocals) (hdests : l.numDests = 1)
    (hdests' : l'.numDests = 1) (h0 : l.pairs 0 = l'.pairs 0) (h1 : l.pairs 1 = l'.pairs 1) :
    l.packet env = l'.packet env.blank := by
  have hpacket : ∀ (env : Env) (l : BreakLocals), l.numDests = 1 →
      l.packet env = .rerr (rerrHeader 0 1) [l.pairs 0, l.pairs 1] := by
    intro env l hl
    unfold BreakLocals.packet
    rw [hl]
    rfl
  rw [hpacket env l hdests, hpacket env.blank l' hdests', h0, h1]

theorem blind_breakLoop (env : Env) (dest : U32) (list : List U32) (l l' : BreakLocals) (n : Node)
    (hnone : NoPrecursors list n) (htarget : l.target = l'.target) (hdests : l.numDests = 1)
    (hdests' : l'.numDests = 1) (h0 : l.pairs 0 = l'.pairs 0) (h1 : l.pairs 1 = l'.pairs 1) :
    Blind (breakLoop env dest list l) (breakLoop env.blank dest list l') n := by
  induction list generalizing n with
  | nil =>
      unfold breakLoop
      rw [htarget, breakPacket_eq env l l' hdests hdests' h0 h1]
      exact blind_send n _ _ _ _ (Prog.projects_unlock _ _ _ _ _ (blind_ret _ _))
  | cons u rest ih =>
      have hrest : NoPrecursors rest n := fun ip hip => hnone ip (List.mem_cons_of_mem u hip)
      refine Prog.projects_read _ _ n ?_
      rw [written_getRoutingEntry, Option.isSome_map]
      refine Prog.projects_ite _ _ _ _ _ _ n Iff.rfl (fun _ => ?_) (fun _ => ih n hrest)
      refine Prog.projects_lock _ _ _ _ n (Prog.projects_read _ _ n ?_)
      rw [written_getRoutingEntry]
      have hgo : ∀ k k', k = l → k' = l' →
          Blind (.op (.linkBreak env u) fun _ _ => .unlock (slotOf u) (breakLoop env dest rest k))
            (.op (.linkBreak env.blank u) fun _ _ =>
              .unlock (slotOf u) (breakLoop env.blank dest rest k')) n := by
        rintro k k' rfl rfl
        refine blind_op (.linkBreak env u) _ _ n (Prog.projects_unlock _ _ _ _ _ (ih _ ?_))
        exact noPrecursors_apply rest n (.linkBreak env u) u _ rfl (fun _ => rfl) hrest
      cases hu : n.getRoutingEntry u with
      | none => exact hgo _ _ rfl rfl
      | some e =>
          -- A destination without precursors is not taken into the RERR.
          have hlist := hnone u List.mem_cons_self e hu
          exact hgo _ _ (if_neg (not_not_intro hlist)) (if_neg (not_not_intro hlist))

section Forwarded

variable (env : Env) (n : Node) (src dest : U32)

theorem blind_forwardedError (destSeq : U32) :
    Blind (forwardedError dest destSeq) (forwardedError dest destSeq) n :=
  blind_op (.sendBroadcast _) _ _ n (blind_ret _ _)

theorem blind_forwardedBreak (hopIp : U32)
    (h : ∀ hop, n.getRoutingEntry hopIp = some hop → NoPrecursors hop.nextHopFor n) :
    Blind (forwardedBreak env dest hopIp) (forwardedBreak env.blank dest hopIp) n := by
  refine Prog.projects_lock _ _ _ _ n (Prog.projects_read _ _ n ?_)
  rw [written_getRoutingEntry]
  cases hhop : n.getRoutingEntry hopIp with
  | none => exact blind_ret _ n
  | some hop =>
      refine blind_op (.write hopIp (.timer env _)) _ _ n (Prog.projects_unlock _ _ _ _ _ ?_)
      refine blind_breakLoop env dest hop.nextHopFor _ _ _ ?_ rfl rfl rfl rfl rfl
      exact noPrecursors_apply _ n (.write hopIp (.timer env _)) hopIp _ rfl (fun _ => rfl)
        (h hop hhop)

theorem blind_forwardedPass (srcEntry : Bool) :
    Blind (forwardedPass env src dest srcEntry) (forwardedPass env.blank src dest srcEntry) n := by
  refine blind_op (.write dest (.timer env _)) _ _ n ?_
  refine Prog.projects_ite _ _ _ _ _ _ _ Iff.rfl (fun _ => ?_) (fun _ => ?_)
  · exact blind_locked src (.write src (.timer env _)) _ _ _
      (Prog.projects_unlock _ _ _ _ _ (blind_ret _ _))
  · exact Prog.projects_unlock _ _ _ _ _ (blind_ret _ _)

theorem blind_forwardedOver (hopIp : U32) (srcEntry other : Bool)
    (h : n.isValid dest = true → n.isValid hopIp = false →
      ∀ hop, n.getRoutingEntry hopIp = some hop → NoPrecursors hop.nextHopFor n) :
    Blind (forwardedOver env src dest hopIp srcEntry other)
      (forwardedOver env.blank src dest hopIp srcEntry other) n := by
  refine Prog.projects_read _ _ n ?_
  rw [written_isValid, written_isValid, written_destIpOf]
  refine Prog.projects_ite _ _ _ _ _ _ n Iff.rfl (fun _ => ?_) (fun hbroken => ?_)
  · refine Prog.projects_ite _ _ _ _ _ _ n Iff.rfl (fun _ => ?_) (fun _ => ?_)
    · exact Prog.projects_unlock _ _ _ _ n (blind_forwardedPass env n src dest srcEntry)
    · exact blind_forwardedPass env n src dest srcEntry
  · refine Prog.projects_ite _ _ _ _ _ _ n Iff.rfl (fun hvalid => ?_) (fun _ => ?_)
    · refine blind_forwardedBreak env n dest hopIp (h hvalid ?_)
      exact Bool.eq_false_iff.mpr (fun hhop => hbroken ⟨hvalid, hhop⟩)
    · exact Prog.projects_unlock _ _ _ _ n (blind_forwardedError n dest _)

theorem blind_forwardedMessages (h : ForwardOk dest n) :
    Blind (forwardedMessages env src dest) (forwardedMessages env.blank src dest) n := by
  refine Prog.projects_read _ _ n ?_
  simp only [written_getRoutingEntry, Option.isSome_map]
  refine Prog.projects_ite _ _ _ _ _ _ n Iff.rfl (fun _ => ?_)
    (fun _ => blind_forwardedError n dest _)
  refine Prog.projects_lock _ _ _ _ n (Prog.projects_read _ _ n ?_)
  simp only [written_getRoutingEntry]
  cases hdest : n.getRoutingEntry dest with
  | none => exact Prog.projects_unlock _ _ _ _ n (blind_forwardedError n dest _)
  | some destination =>
      show Blind (match n.getRoutingEntry destination.nextHop with | none => _ | some hop => _)
        (match (n.getRoutingEntry destination.nextHop).map RoutingEntry.written with
          | none => _ | some hop => _) n
      cases hhop : n.getRoutingEntry destination.nextHop with
      | none => exact Prog.projects_unlock _ _ _ _ n (blind_forwardedError n dest _)
      | some hop =>
          -- A broken next hop has no precursors here, so no list left unwritten is sent.
          have hbroken : n.isValid dest = true → n.isValid destination.nextHop = false →
              ∀ hop, n.getRoutingEntry destination.nextHop = some hop →
                NoPrecursors hop.nextHopFor n := by
            intro hvalid hinvalid hop hhop
            unfold Node.isValid at hvalid hinvalid
            rw [hdest, Option.any_some, decide_eq_true_eq] at hvalid
            rw [hhop, Option.any_some, decide_eq_false_iff_not] at hinvalid
            refine h destination hdest hvalid hop hhop ?_
            cases hstatus : hop.status with
            | routeInvalid => rfl
            | routeValid => exact absurd hstatus hinvalid
          refine Prog.projects_ite _ _ _ _ _ _ n Iff.rfl (fun _ => ?_) (fun _ => ?_)
          · exact Prog.projects_lock _ _ _ _ n
              (blind_forwardedOver env n src dest _ _ true hbroken)
          · exact blind_forwardedOver env n src dest _ _ false hbroken

end Forwarded

/-! ### Steps and runs -/

/-- The dispatch, for a message whose handler projects. -/
theorem blind_incomingControlMessage (env : Env) (n : Node) (src : U32)
    (message message' : ControlMessage) (hsame : SameMessage message message')
    (h : src = n.ipAddress ∨ ∀ m, message = .rreq m → RequestOk env.now src m n) :
    Blind (incomingControlMessage env src message)
      (incomingControlMessage env.blank src message') n := by
  refine Prog.projects_read _ _ n ?_
  refine Prog.projects_ite _ _ _ _ _ _ n Iff.rfl (fun _ => blind_ret _ n) (fun hother => ?_)
  have hrequest := h.resolve_left hother
  cases message with
  | rreq m =>
      cases message' with
      | rreq m' =>
          cases hsame
          exact blind_recvRreq env src m n (hrequest m rfl)
      | rrep | rerr => exact absurd hsame id
  | rrep m =>
      cases message' with
      | rrep m' =>
          cases hsame
          exact blind_recvRrep env n src m
      | rreq | rerr => exact absurd hsame id
  | rerr m destPairs =>
      cases message' with
      | rerr m' destPairs' =>
          rcases hsame with ⟨rfl, hpairs⟩
          exact blind_recvRerr env n src m destPairs destPairs' hpairs
      | rreq | rrep => exact absurd hsame id

/-- An input that discloses nothing does to the written part of the node, in any
    memory, what it does there in clear memory. -/
theorem rawStep_written (n : Node) (input : RawInput) (memory : Memory) (hok : SendOk n input) :
    (rawStep n (input, memory)).written = rawStep n.written (input, fun _ _ => 0) := by
  rcases input with ⟨now, event⟩
  cases event with
  | received src payload =>
      have hmessage : ∀ message message', SameMessage message message' →
          (src = n.ipAddress ∨ ∀ m, message = .rreq m → RequestOk now src m n) →
          (step n ⟨⟨now, memory⟩, .control src message⟩).written =
            step n.written ⟨⟨now, fun _ _ => 0⟩, .control src message'⟩ := by
        intro message message' hsame h
        exact blind_incomingControlMessage ⟨now, memory⟩ n src message message' hsame h
      rcases hok with hown | ⟨hcomplete, hrequest⟩
      · -- A node does not listen to itself, whatever it reads.
        have hskip : ∀ (n : Node) (memory : Memory), src = n.ipAddress →
            rawStep n (⟨now, .received src payload⟩, memory) = n := by
          intro n memory hown
          simp only [rawStep, RawInput.read, RawEvent.read]
          cases readMessage (payloadBytes payload (memory .payload)) with
          | none => rfl
          | some message =>
              rw [hown]
              exact step_own n _ message
        rw [hskip n memory hown, hskip n.written _ hown]
      · have hread := readMessage_complete payload (memory .payload) hcomplete
        simp only [rawStep, RawInput.read, RawEvent.read]
        revert hread
        cases hread' : readMessage (payloadBytes payload fun _ => 0) with
        | none =>
            cases readMessage (payloadBytes payload (memory .payload)) with
            | none => exact fun _ => rfl
            | some message => exact fun hread => by cases hread
        | some message' =>
            cases readMessage (payloadBytes payload (memory .payload)) with
            | none => exact fun hread => by cases hread
            | some message =>
                intro hread
                cases hread with
                | some hsame =>
                    refine hmessage message message' hsame (Or.inr (fun m hm => ?_))
                    -- The request read is the one the condition is about.
                    rw [hm] at hsame
                    cases message' with
                    | rreq m' =>
                        rcases readMessage_eq_rreq _ m' hread' with ⟨htype, hm'⟩
                        have hreq := hrequest (payload_type payload _ rreqType hcomplete.1 htype)
                        rw [← hm', ← (show m = m' from hsame)] at hreq
                        exact hreq
                    | rrep | rerr => exact absurd hsame id
  | forwarded src dest => exact blind_forwardedMessages ⟨now, memory⟩ n src dest hok
  | hello =>
      have hspins : ∀ n : Node, n.helloStage = .spinning → (helloInterval.exec Op.apply n).1 =
          if n.activeRoutes = 0 then n else { n with helloStage := .sleeping } := by
        intro n hstage
        simp only [helloInterval, Prog.exec, hstage]
        split
        · rfl
        · rfl
      show (helloInterval.exec Op.apply n).1.written = (helloInterval.exec Op.apply n.written).1
      rw [hspins n hok, hspins n.written hok, show n.written.activeRoutes = n.activeRoutes from rfl]
      split
      · rfl
      · rfl
  | data src dest => exact blind_incomingDataMessage ⟨now, memory⟩ n src dest
  | outgoing dest => exact blind_outgoingMessage ⟨now, memory⟩ n dest
  | search id => exact blind_searchThreadStep ⟨now, memory⟩ n id
  | wait k => exact blind_waiterStep ⟨now, memory⟩ n k
  | expire ip => exact blind_expirationFunc ⟨now, memory⟩ n ip
  | rreqIdExpire ip => exact blind_rreqIdFunc n ip

section SameWritten

variable (n n' : Node) (hn : n.written = n'.written)

include hn

theorem ipAddress_of_written : n.ipAddress = n'.ipAddress := by
  have h : n.written.ipAddress = n'.written.ipAddress := congrArg Node.ipAddress hn
  exact h

/-- Entries are found in the same places, the same as far as they are written. -/
theorem found_of_written (ip : U32) (e' : RoutingEntry) (he' : n'.getRoutingEntry ip = some e') :
    ∃ e, n.getRoutingEntry ip = some e ∧ e.written = e'.written := by
  have hmap : (n.getRoutingEntry ip).map RoutingEntry.written =
      (n'.getRoutingEntry ip).map RoutingEntry.written := by
    rw [← written_getRoutingEntry, ← written_getRoutingEntry, hn]
  rw [he', Option.map_some] at hmap
  exact Option.map_eq_some_iff.mp hmap

theorem requestOk_written (now : Timespec) (s : U32) (m : RreqHeader)
    (h : RequestOk now s m n) : RequestOk now s m n' := by
  have hip := ipAddress_of_written n n' hn
  rcases h with hown | ⟨hknown, hrest⟩
  · exact Or.inl (hip ▸ hown)
  -- What the node would answer depends on the written fields only.
  have hanswers : AnswersNothing now s m n → AnswersNothing now s m n' := by
    rintro ⟨hdest, hnone⟩
    refine ⟨hip ▸ hdest, ?_⟩
    exact (answers_eq (.at now) s (incrementHopRreq m) n (.at now) n' rfl hn).symm.trans hnone
  unfold RreqIdKnown at hknown
  cases he' : n'.getRoutingEntry m.srcIp with
  | none =>
      have hmap : (n.getRoutingEntry m.srcIp).map RoutingEntry.written = none := by
        rw [← written_getRoutingEntry, hn, written_getRoutingEntry, he']
        rfl
      have he := Option.map_eq_none_iff.mp hmap
      rw [he] at hknown
      refine Or.inr ⟨?_, hrest.imp (fun hdrop => ?_) hanswers⟩
      · rw [RreqIdKnown, he']
        exact hknown
      · rw [dropped, he, hip] at hdrop
        rw [dropped, he']
        exact hdrop
  | some e' =>
      rcases found_of_written n n' hn m.srcIp e' he' with ⟨e, he, hsame⟩
      rw [he] at hknown
      have hset : e.written.rreqIdSet = e'.written.rreqIdSet :=
        congrArg RoutingEntry.rreqIdSet hsame
      have hset' : e'.rreqIdSet = true := hset.symm.trans hknown
      refine Or.inr ⟨?_, hrest.imp (fun hdrop => ?_) hanswers⟩
      · rw [RreqIdKnown, he']
        exact hset'
      · rw [dropped, he, hip, Option.any_some, ← isDuplicate_written m _ e hknown, hsame,
          isDuplicate_written m _ e' hset'] at hdrop
        rw [dropped, he', Option.any_some]
        exact hdrop

/-- Whether an input discloses anything does not depend on fresh memory. -/
theorem sendOk_written (input : RawInput) (h : SendOk n input) : SendOk n' input := by
  have hip := ipAddress_of_written n n' hn
  rcases input with ⟨now, event⟩
  cases event with
  | received src payload =>
      rcases h with hown | ⟨hcomplete, hrequest⟩
      · exact Or.inl (hip ▸ hown)
      · exact Or.inr ⟨hcomplete, fun htype => requestOk_written n n' hn now src _ (hrequest htype)⟩
  | forwarded src dest =>
      intro destination' hdest' hvalid hop' hhop' hinvalid ip hip e' he'
      -- The entries met on the way agree in what was written, which is all that is read.
      rcases found_of_written n n' hn dest destination' hdest' with ⟨destination, hdest, hd⟩
      have hnext : destination.written.nextHop = destination'.written.nextHop :=
        congrArg RoutingEntry.nextHop hd
      have hvalid' : destination.written.status = destination'.written.status :=
        congrArg RoutingEntry.status hd
      rcases found_of_written n n' hn _ hop' hhop' with ⟨hop, hhop, hh⟩
      have hfor : hop.written.nextHopFor = hop'.written.nextHopFor :=
        congrArg RoutingEntry.nextHopFor hh
      have hinvalid' : hop.written.status = hop'.written.status :=
        congrArg RoutingEntry.status hh
      rcases found_of_written n n' hn ip e' he' with ⟨e, he, hee⟩
      have hlist : e.written.precursorList = e'.written.precursorList :=
        congrArg RoutingEntry.precursorList hee
      have hhop' : n.getRoutingEntry destination.nextHop = some hop := by
        rw [show destination.nextHop = destination'.nextHop from hnext]
        exact hhop
      have hip' : ip ∈ hop.nextHopFor := by
        rw [show hop.nextHopFor = hop'.nextHopFor from hfor]
        exact hip
      exact hlist.symm.trans
        (h destination hdest (hvalid'.trans hvalid) hop hhop'
          (hinvalid'.trans hinvalid) ip hip' e he)
  | hello =>
      have hstage : n.written.helloStage = n'.written.helloStage := congrArg Node.helloStage hn
      exact hstage.symm.trans h
  | data | outgoing | search | wait | expire | rreqIdExpire => trivial

end SameWritten

/-- What a node sends does not depend on fresh memory: over the same packets, in
    any two memories, it sends the same, as long as no input makes it disclose
    anything. -/
theorem transmissions_agree (n : Node) (hello hello' : Nat → Byte)
    (inputs inputs' : List (RawInput × Memory)) (hsame : inputs.map Prod.fst = inputs'.map Prod.fst)
    (hok : AllSteps rawStep (fun n input => SendOk n input.1)
      { n with helloBlock := hello } inputs) :
    (run rawStep { n with helloBlock := hello } inputs).transmissions =
      (run rawStep { n with helloBlock := hello' } inputs').transmissions := by
  have hwritten : (run rawStep { n with helloBlock := hello } inputs).written =
      (run rawStep { n with helloBlock := hello' } inputs').written :=
    run_agree rawStep (fun n input => rawStep n (input, fun _ _ => 0)) Node.written Prod.fst
      (fun n input => SendOk n input.1) (fun n input hok => rawStep_written n input.1 input.2 hok)
      (fun n n' input input' hn hinput hok => hinput ▸ sendOk_written n n' hn input.1 hok)
      _ _ inputs inputs' rfl hsame hok
  have hlog : (run rawStep { n with helloBlock := hello } inputs).written.log =
      (run rawStep { n with helloBlock := hello' } inputs').written.log :=
    congrArg Node.log hwritten
  exact congrArg (List.filterMap ApiCall.transmission) hlog

/-- Memory full of ones. -/
def onesMemory : Memory := fun _ _ => 0xFF

/-- The bytes of a request of 3.0.0.0 for a destination. -/
def requestPayload (destIp : U32) : List Byte :=
  let m := { generateRreqMessage (rreqUnknown.setWidth 8) 1 destIp 0 0x03000000 1 with ttl := 5 }
  (Packet.rreq m).bytes.getD []

def received (src : U32) (payload : List Byte) : RawInput :=
  { now := { tvSec := 0, tvNsec := 0 }, event := .received src payload }

/-- A request for a third node arrives and is broadcast again. -/
def passOnRun (memory : Memory) : List (RawInput × Memory) :=
  [(received 0x02000000 (requestPayload 0x04000000), memory)]

theorem transmissions_agree_passOn :
    (run rawStep { Node.boot 0x01000000 0xFFFFFFFF (fun _ => 0) with helloBlock := fun _ => 0 }
      (passOnRun fun _ _ => 0)).transmissions =
    (run rawStep { Node.boot 0x01000000 0xFFFFFFFF (fun _ => 0) with helloBlock := fun _ => 0xFF }
      (passOnRun onesMemory)).transmissions :=
  transmissions_agree (Node.boot 0x01000000 0xFFFFFFFF (fun _ => 0)) (fun _ => 0) (fun _ => 0xFF)
    (passOnRun fun _ _ => 0) (passOnRun onesMemory) rfl (by decide)

/-- A request for the node itself is answered, and the prefix size of the answer
    is what the block contained. -/
theorem not_transmissions_agree_answer :
    ¬ ∀ (n : Node) (hello hello' : Nat → Byte) (inputs inputs' : List (RawInput × Memory)),
      inputs.map Prod.fst = inputs'.map Prod.fst →
        (run rawStep { n with helloBlock := hello } inputs).transmissions =
          (run rawStep { n with helloBlock := hello' } inputs').transmissions := by
  intro h
  have hsame := h (Node.boot 0x01000000 0xFFFFFFFF (fun _ => 0)) (fun _ => 0) (fun _ => 0)
    [(received 0x02000000 (requestPayload 0x01000000), fun _ _ => 0)]
    [(received 0x02000000 (requestPayload 0x01000000), onesMemory)] rfl
  revert hsame
  decide

end OpenManet
