import OpenManet.Theory.BreakArray

/-!
# The Numbers a Route Error States

Who receives a RERR copies the numbers in it, so they should be those the sender
stores once its handler is done. A RERR that is passed on states the numbers it was
received with, and these have just been copied to the entries: it is true, whatever
became of the index it was collected under.

A forwarded packet makes a node assemble a RERR of its own in two ways, and neither
is true as it stands. The error about a packet without a route is given the address of
the entry where its number is meant. The error of a link break states the next hop's
number, which the loop may then raise if the next hop is listed under itself, and with
any other destination in it comes the second pair, which nobody has written.

## Main definitions

* `StatesNumbers`: The pairs of a RERR agree with a table.
* `TrueErrors`: All RERRs of a step do.
* `Refuses`, `pairsAnnounced`: The two ways a node comes to send its own.

## Theorems

* `passedOn_true`: What is passed on is true.
* `refused_sends`, `break_states`: What the two kinds of RERR say.
* `errors_true_iff`: When the RERRs of a node are true.
-/

namespace OpenManet

/-- Where the node's table holds an entry with the address of a pair, the number of the
    pair is the entry's. -/
def StatesNumbers (n : Node) (header : RerrHeader) (words : List U32) : Prop :=
  ∀ p ∈ rerrPairs header.destCount (fun i => words.getD i 0),
    ∀ i e, n.routes.slots i = some e → e.destIp = p.1 → e.destSeq = p.2

/-- Every RERR sent in the step states the numbers the node stores after it. -/
def TrueErrors (n : Node) (input : Input) : Prop :=
  ∀ header words, .rerr header words ∈ (stepCalls n input).filterMap ApiCall.packet →
    StatesNumbers (step n input) header words

/-- A packet for the destination is refused: its route is not valid, or the next hop
    has no entry. -/
def Refuses (n : Node) (dest : U32) (destination : RoutingEntry) : Prop :=
  n.getRoutingEntry dest = some destination ∧
    (destination.status = .routeInvalid ∨ n.getRoutingEntry destination.nextHop = none)

/-- How many pairs the error of a link break says it has, in eight bits: one for the next
    hop and one for each listed destination with precursors. -/
def pairsAnnounced (n : Node) (hop : RoutingEntry) : Nat :=
  (1 + (takenIn n hop.nextHopFor).length) % 256

/-! ### What a step sends -/

/-- The packets of a step, when the record shows them. -/
theorem sends_of_sentPackets (n : Node) (input : Input) (packets : List Packet)
    (h : (step n input).sentPackets = packets ++ n.sentPackets) :
    (stepCalls n input).filterMap ApiCall.packet = packets := by
  unfold Node.sentPackets at h
  rw [log_step, List.filterMap_append] at h
  exact List.append_cancel_right h

/-- A step that sends no RERR states nothing. -/
theorem trueErrors_of_none (n : Node) (input : Input) (packets : List Packet)
    (h : (step n input).sentPackets = packets ++ n.sentPackets)
    (hnone : ∀ header words, .rerr header words ∉ packets) : TrueErrors n input := by
  intro header words hmem
  rw [sends_of_sentPackets n input packets h] at hmem
  exact absurd hmem (hnone header words)

/-- A step that sends one RERR states its pairs. -/
theorem trueErrors_of_one (n : Node) (input : Input) (header : RerrHeader) (words : List U32)
    (h : (step n input).sentPackets = .rerr header words :: n.sentPackets) :
    TrueErrors n input ↔ StatesNumbers (step n input) header words := by
  have hsends := sends_of_sentPackets n input [.rerr header words] h
  unfold TrueErrors
  rw [hsends]
  constructor
  · exact fun htrue => htrue header words (List.mem_singleton.mpr rfl)
  · intro hstates header' words' hmem
    rcases Packet.rerr.inj (List.mem_singleton.mp hmem) with ⟨rfl, rfl⟩
    exact hstates

/-- The pairs of a message whose words are those of an array. -/
theorem rerrPairs_of_words (count : Byte) (words array : Nat → U32)
    (h : ∀ k, k < 2 * count.toNat → words k = array k) :
    rerrPairs count words = rerrPairs count array := by
  refine List.map_congr_left fun j hj => ?_
  rw [List.mem_range] at hj
  rw [h (2 * j) (by omega), h (2 * j + 1) (by omega)]

theorem map_range_getD (array : Nat → U32) (length k : Nat) (default : U32) (hk : k < length) :
    ((List.range length).map array).getD k default = array k := by
  rw [List.getD_eq_getElem?_getD, List.getElem?_map, List.getElem?_range hk]
  rfl

/-! ### Errors passed on -/

/-- The first pair of a slot is the one that is found in it. -/
theorem find?_of_firstPairs (pairs : List (U32 × U32)) (p : U32 × U32) (h : p ∈ firstPairs pairs) :
    pairs.find? (fun q => slotOf q.1 = slotOf p.1) = some p := by
  induction pairs with
  | nil => cases h
  | cons a rest ih =>
      rw [firstPairs] at h
      rcases List.mem_cons.mp h with rfl | hrest
      · exact List.find?_cons_of_pos (decide_eq_true rfl)
      · rcases List.mem_filter.mp hrest with ⟨hmem, hslot⟩
        have hne : slotOf p.1 ≠ slotOf a.1 := of_decide_eq_true hslot
        rw [List.find?_cons_of_neg (by rw [decide_eq_true_eq]; exact Ne.symm hne)]
        exact ih hmem

/-- What is passed on is the number its entry has been given. -/
theorem passedOn_true (env : Env) (s : U32) (pairs : List (U32 × U32)) (n n' : Node)
    (htable : ∀ i, n'.routes.slots i = (n.routes.slots i).map (errorLeaves env s pairs i))
    (q : U32 × U32) (hq : q ∈ toPassOn s n pairs) (i : Fin 256) (e' : RoutingEntry)
    (he' : n'.routes.slots i = some e') (hdest : e'.destIp = q.1) : e'.destSeq = q.2 := by
  rcases List.mem_filterMap.mp hq with ⟨p, hfirst, hpassed⟩
  unfold passedOn at hpassed
  cases he : n.getRoutingEntry p.1 with
  | none =>
      rw [he] at hpassed
      cases hpassed
  | some e =>
      rw [he] at hpassed
      simp only [Option.ite_none_right_eq_some, Option.some.injEq] at hpassed
      rcases hpassed with ⟨⟨hthrough, -⟩, rfl⟩
      -- The entry named is the one the pair has found, since both are in one slot.
      have hslot : i = slotOf p.1 := by
        rw [← n'.routes.keyed i e' he', hdest]
        exact n.routes.keyed (slotOf p.1) e he
      rw [htable, hslot, ← Node.getRoutingEntry_eq, he, Option.map_some, Option.some.injEq] at he'
      rw [← he']
      unfold errorLeaves
      rw [if_pos hthrough, find?_of_firstPairs pairs p hfirst]
      rfl

/-- Every RERR that is passed on is true. -/
theorem trueErrors_passedOn (n : Node) (env : Env) (s : U32) (header : RerrHeader)
    (destPairs : Nat → U32) :
    TrueErrors n { env := env, event := .control s (.rerr header destPairs) } := by
  by_cases hown : s = n.ipAddress
  · refine trueErrors_of_none n _ [] ?_ (fun _ _ => List.not_mem_nil)
    rw [step_rerr, if_pos hown]
    rfl
  · rcases recvRerr_sends env s header destPairs n with ⟨l, hl, hsent⟩
    have hstep := step_rerr n env s header destPairs
    rw [if_neg hown] at hstep
    by_cases hzero : l.numDests = 0
    · rw [if_pos hzero] at hsent
      exact trueErrors_of_none n _ [] (hstep ▸ hsent) (fun _ _ => List.not_mem_nil)
    · rcases collected_packet l _ hl hzero with ⟨header', hpacket, hcount⟩
      rw [if_neg hzero, hpacket] at hsent
      refine (trueErrors_of_one n _ header' _ (hstep ▸ hsent)).mpr ?_
      intro p hp i e' he' hdest
      rw [hstep] at he'
      refine passedOn_true env s _ n _ (rerrLoop_table env s _ _ n) p ?_ i e' he' hdest
      -- Each pair sent lies below the count, so it is one of those collected.
      rw [rerrPairs_of_words _ _ l.pairs fun k hk => map_range_getD l.pairs _ k 0 hk] at hp
      rcases List.mem_map.mp hp with ⟨j, hj, rfl⟩
      rw [List.mem_range] at hj
      have hlcount := hl.count
      exact hl.among j (by omega)

/-! ### Packets without a route -/

section Forwarded

variable (n : Node) (env : Env) (src dest : U32)

/-- The error about a packet without a route, as the node that sends it. -/
theorem forwardedError_exec (destSeq : U32) :
    ((forwardedError dest destSeq).exec Op.apply n).1 =
      n.call (.sendBroadcast (.rerr (rerrHeader 0 1) [dest, destSeq])) := rfl

theorem step_unknown (h : n.getRoutingEntry dest = none) :
    step n ⟨env, .forwarded src dest⟩ =
      n.call (.sendBroadcast (.rerr (rerrHeader 0 1) [dest, 0])) := by
  simp only [step, programStep, Input.handler, forwardedMessages, Prog.exec]
  rw [h, Option.isSome_none, if_neg Bool.false_ne_true]
  exact forwardedError_exec n dest 0

/-- The address of the entry stands where its number is meant. -/
theorem step_refused (destination : RoutingEntry) (h : Refuses n dest destination) :
    step n ⟨env, .forwarded src dest⟩ =
      n.call (.sendBroadcast (.rerr (rerrHeader 0 1) [dest, destination.destIp])) := by
  rcases h with ⟨hdest, hrefused⟩
  cases hhop : n.getRoutingEntry destination.nextHop with
  | none =>
      simp only [step, programStep, Input.handler, forwardedMessages, Prog.exec]
      rw [if_pos (by rw [hdest, Option.isSome_some])]
      simp only [Prog.exec, hdest, hhop]
      exact forwardedError_exec n dest destination.destIp
  | some hop =>
      -- With a next hop it is for its status that the route is refused.
      have hinvalid : destination.status = .routeInvalid :=
        hrefused.resolve_right (by rw [hhop]; exact Option.some_ne_none _)
      have hnot : ¬ n.isValid dest = true := by
        rw [Node.isValid, hdest, Option.any_some, hinvalid]
        decide
      have hip : n.destIpOf dest = destination.destIp := by
        unfold Node.destIpOf
        rw [hdest]
      rcases step_forwardedOver n env src dest destination hop hdest hhop with
        ⟨srcEntry, other, hstep⟩
      rw [hstep]
      simp only [forwardedOver, Prog.exec]
      rw [if_neg (fun hboth => hnot hboth.1), if_neg hnot, hip]
      exact forwardedError_exec n dest destination.destIp

/-- A packet with a route is passed on silently. -/
theorem step_passed (destination hop : RoutingEntry) (hdest : n.getRoutingEntry dest =
    some destination) (hvalid : destination.status = .routeValid)
    (hhop : n.getRoutingEntry destination.nextHop = some hop) (hup : hop.status = .routeValid) :
    (step n ⟨env, .forwarded src dest⟩).sentPackets = n.sentPackets := by
  have hboth : n.isValid dest = true ∧ n.isValid destination.nextHop = true := by
    rw [Node.isValid, Node.isValid, hdest, hhop, Option.any_some, Option.any_some, hvalid, hup]
    decide
  -- What is left to do only restarts timers.
  have hpass : ∀ srcEntry,
      ((forwardedPass env src dest srcEntry).exec Op.apply n).1.sentPackets = n.sentPackets := by
    intro srcEntry
    simp only [forwardedPass, Prog.exec]
    split <;> rfl
  rcases step_forwardedOver n env src dest destination hop hdest hhop with ⟨srcEntry, other, hstep⟩
  rw [hstep]
  simp only [forwardedOver, Prog.exec]
  rw [if_pos hboth]
  split
  · exact hpass srcEntry
  · exact hpass srcEntry

/-- The error about a packet without a route is true unless the entry has the address
    and another number than that. -/
theorem trueErrors_refused_iff (destination : RoutingEntry) (h : Refuses n dest destination) :
    TrueErrors n ⟨env, .forwarded src dest⟩ ↔
      (destination.destIp = dest → destination.destSeq = dest) := by
  have hstep := step_refused n env src dest destination h
  have hsent := congrArg Node.sentPackets hstep
  rw [trueErrors_of_one n _ (rerrHeader 0 1) [dest, destination.destIp] hsent, hstep]
  have hpairs : rerrPairs (rerrHeader 0 1).destCount
      (fun i => [dest, destination.destIp].getD i 0) = [(dest, destination.destIp)] := rfl
  unfold StatesNumbers
  rw [hpairs]
  constructor
  · intro hstates hip
    rw [hstates _ (List.mem_singleton.mpr rfl) _ destination h.1 hip, hip]
  · intro htrue p hp i e he hip
    rw [List.mem_singleton.mp hp] at hip ⊢
    -- An entry with the address is the one in its slot.
    have hslot : i = slotOf dest := by
      rw [← n.routes.keyed i e he, hip]
    have hsame : n.routes.slots i = some destination := by
      rw [hslot, ← Node.getRoutingEntry_eq, h.1]
    cases he.symm.trans hsame
    exact (htrue hip).trans hip.symm

theorem trueErrors_unknown (h : n.getRoutingEntry dest = none) :
    TrueErrors n ⟨env, .forwarded src dest⟩ := by
  have hstep := step_unknown n env src dest h
  have hsent := congrArg Node.sentPackets hstep
  rw [trueErrors_of_one n _ (rerrHeader 0 1) [dest, 0] hsent, hstep]
  intro p hp i e he hip
  have hone : p = (dest, 0) := List.mem_singleton.mp hp
  rw [hone] at hip
  have hslot : i = slotOf dest := by
    rw [← n.routes.keyed i e he, hip]
  rw [Node.getRoutingEntry_eq, ← hslot] at h
  cases h.symm.trans he

end Forwarded

/-! ### Link breaks -/

section Break

variable (n : Node) (env : Env) (src dest : U32) (hop : RoutingEntry)

/-- The packet of a link break has so many pairs, taken from the array. -/
theorem break_packet (hsome : pairsAnnounced n hop ≠ 0) :
    ∃ header words, (breakArray env n dest hop).locals.packet env = .rerr header words ∧
      header.destCount.toNat = pairsAnnounced n hop ∧
      ∀ k, k < 2 * pairsAnnounced n hop →
        words.getD k 0 = (breakArray env n dest hop).locals.pairs k := by
  have hcount := breakArray_count env n dest hop
  -- The generator is given the count in eight bits.
  have hnarrow : ((breakArray env n dest hop).locals.numDests.setWidth 8).toNat =
      pairsAnnounced n hop := by
    rw [BitVec.toNat_setWidth, hcount, pairsAnnounced]
    omega
  have hne : (breakArray env n dest hop).locals.numDests.setWidth 8 ≠ (0 : Byte) := by
    intro hzero
    rw [hzero] at hnarrow
    exact hsome hnarrow.symm
  refine ⟨_, _, by rw [BreakLocals.packet, generateRerrMessageBuff, if_neg hne], hnarrow,
    fun k hk => ?_⟩
  -- The words sent reach as far as the count before it was narrowed.
  have hwide : k < 2 * (breakArray env n dest hop).locals.numDests.toNat := by
    rw [hcount]
    rw [pairsAnnounced] at hk
    omega
  rw [sentWords, map_range_getD _ _ k 0 hwide]
  exact map_range_getD _ _ k _ (by rw [hnarrow]; exact hk)

theorem break_packet_null (hnone : pairsAnnounced n hop = 0) :
    ∃ length, (breakArray env n dest hop).locals.packet env = .null length := by
  have hzero : (breakArray env n dest hop).locals.numDests.setWidth 8 = (0 : Byte) := by
    apply BitVec.eq_of_toNat_eq
    rw [BitVec.toNat_setWidth, breakArray_count]
    rw [pairsAnnounced] at hnone
    show _ = 0
    omega
  exact ⟨_, by rw [BreakLocals.packet, generateRerrMessageBuff, if_pos hzero]⟩

/-- The next hop's number after the loop: up by one for each listing of its slot. -/
theorem break_hop (h : TakesLinkBreak n dest hop) (i : Fin 256) (e : RoutingEntry)
    (he : (step n ⟨env, .forwarded src dest⟩).routes.slots i = some e)
    (hip : e.destIp = hop.destIp) :
    e.destSeq = hop.destSeq + BitVec.ofNat 32 (countIn (slotOf hop.destIp) hop.nextHopFor) := by
  have hslots := (step_linkBreak n env src dest hop h).1
  rcases h with ⟨destination, -, -, hhop, -⟩
  have hkeyed := n.routes.keyed (slotOf destination.nextHop) hop hhop
  rw [Node.getRoutingEntry_eq, ← hkeyed] at hhop
  rcases hslots (slotOf hop.destIp) hop hhop with ⟨e', he', hbroken⟩
  have hslot : i = slotOf hop.destIp := by
    rw [← (step n ⟨env, .forwarded src dest⟩).routes.keyed i e he, hip]
  rw [hslot] at he
  cases he.symm.trans he'
  exact hbroken.destSeq

/-- The next hop has an entry after the loop. -/
theorem break_hop_exists (h : TakesLinkBreak n dest hop) :
    ∃ i e, (step n ⟨env, .forwarded src dest⟩).routes.slots i = some e ∧
      e.destIp = hop.destIp := by
  have hslots := (step_linkBreak n env src dest hop h).1
  rcases h with ⟨destination, -, -, hhop, -⟩
  rcases hslots (slotOf destination.nextHop) hop hhop with ⟨e', he', hbroken⟩
  exact ⟨_, e', he', hbroken.destIp⟩

/-- The number stated for the next hop is the one it is left with exactly if the loop
    has not raised it. -/
theorem hopPair_iff (h : TakesLinkBreak n dest hop) :
    (∀ i e, (step n ⟨env, .forwarded src dest⟩).routes.slots i = some e →
      e.destIp = hop.destIp → e.destSeq = hop.destSeq) ↔
    BitVec.ofNat 32 (countIn (slotOf hop.destIp) hop.nextHopFor) = 0 := by
  constructor
  · intro hsame
    rcases break_hop_exists n env src dest hop h with ⟨i, e, he, hip⟩
    have hraised := break_hop n env src dest hop h i e he hip
    rw [hsame i e he hip] at hraised
    exact left_eq_add.mp hraised
  · intro hzero i e he hip
    rw [break_hop n env src dest hop h i e he hip, hzero]
    exact BitVec.add_zero _

/-- What the error of a link break states, as its array has it. -/
theorem trueErrors_array_iff (h : TakesLinkBreak n dest hop) (hsome : pairsAnnounced n hop ≠ 0) :
    TrueErrors n ⟨env, .forwarded src dest⟩ ↔
      ∀ j, j < pairsAnnounced n hop → ∀ i e,
        (step n ⟨env, .forwarded src dest⟩).routes.slots i = some e →
          e.destIp = (breakArray env n dest hop).locals.pairs (2 * j) →
          e.destSeq = (breakArray env n dest hop).locals.pairs (2 * j + 1) := by
  rcases break_packet n env dest hop hsome with ⟨header, words, hpacket, hcount, hwords⟩
  have hsent := linkBreak_sends n env src dest hop h
  rw [hpacket] at hsent
  rw [trueErrors_of_one n _ header words hsent, StatesNumbers, rerrPairs_of_words _ _
    (breakArray env n dest hop).locals.pairs (fun k hk => hwords k (hcount ▸ hk))]
  simp only [rerrPairs, List.mem_map, List.mem_range, forall_exists_index, and_imp,
    forall_apply_eq_imp_iff₂, hcount]

/-- A memory whose block for the pairs holds these two numbers as words two and three. -/
def memoryWith (x y : U32) : Memory := fun block =>
  if block = .rerrPairs then payloadBytes ([0, 0, x, y].flatMap wordBytes ++ []) (fun _ => 0)
  else fun _ => 0

theorem memoryWith_words (x y : U32) :
    wordAt (memoryWith x y .rerrPairs) 2 = x ∧ wordAt (memoryWith x y .rerrPairs) 3 = y :=
  ⟨wordAt_wordBytes [0, 0, x, y] [] (fun _ => 0) 2 (by decide : 2 < 4),
    wordAt_wordBytes [0, 0, x, y] [] (fun _ => 0) 3 (by decide : 3 < 4)⟩

/-- The error of a link break is true in every memory exactly if it says nothing, or has
    the next hop's pair alone and the loop has not raised that number. -/
theorem trueErrors_break_iff (now : Timespec) (h : TakesLinkBreak n dest hop)
    (hlen : hop.nextHopFor.length < 2 ^ 32) :
    (∀ memory, TrueErrors n ⟨⟨now, memory⟩, .forwarded src dest⟩) ↔
      (pairsAnnounced n hop = 0 ∨ (pairsAnnounced n hop = 1 ∧
        BitVec.ofNat 32 (countIn (slotOf hop.destIp) hop.nextHopFor) = 0)) := by
  by_cases hnone : pairsAnnounced n hop = 0
  · refine ⟨fun _ => Or.inl hnone, fun _ memory => ?_⟩
    rcases break_packet_null n ⟨now, memory⟩ dest hop hnone with ⟨length, hpacket⟩
    refine trueErrors_of_none n _ [.null length] ?_ (fun header words hmem => ?_)
    · rw [linkBreak_sends n ⟨now, memory⟩ src dest hop h, hpacket]
      rfl
    · cases List.mem_singleton.mp hmem
  · -- The first two pairs of the array are the next hop's and what memory held.
    have hround : 1 + (takenIn n hop.nextHopFor).length < 2 ^ 32 := by
      have hle : (takenIn n hop.nextHopFor).length ≤ hop.nextHopFor.length :=
        List.length_filter_le _ _
      rw [pairsAnnounced] at hnone
      omega
    have hlow := fun memory k hk => (breakArray_low ⟨now, memory⟩ n dest hop hround k hk).1
    rw [or_iff_right hnone]
    constructor
    · intro htrue
      have hhop : ∀ memory i e, (step n ⟨⟨now, memory⟩, .forwarded src dest⟩).routes.slots i =
          some e → e.destIp = hop.destIp → e.destSeq = hop.destSeq := by
        intro memory i e he hip
        have hstated := (trueErrors_array_iff n ⟨now, memory⟩ src dest hop h hnone).mp
          (htrue memory) 0 (by omega) i e he (hip.trans (hlow memory 0 (by decide)).symm)
        exact hstated.trans (hlow memory 1 (by decide))
      refine ⟨?_, (hopPair_iff n ⟨now, fun _ _ => 0⟩ src dest hop h).mp (hhop (fun _ _ => 0))⟩
      -- With a second pair there is a memory in which it gives the next hop another number.
      by_contra hmore
      have hwords := memoryWith_words hop.destIp (hop.destSeq + 1)
      generalize hmemory : memoryWith hop.destIp (hop.destSeq + 1) = memory at hwords
      rcases break_hop_exists n ⟨now, memory⟩ src dest hop h with ⟨i, e, he, hip⟩
      have hsecond := (trueErrors_array_iff n ⟨now, memory⟩ src dest hop h hnone).mp
        (htrue memory) 1 (by omega) i e he
        (hip.trans (hwords.1.symm.trans (hlow memory 2 (by decide)).symm))
      rw [hlow memory 3 (by decide)] at hsecond
      have hother : e.destSeq = hop.destSeq + 1 := hsecond.trans hwords.2
      rw [hhop memory i e he hip] at hother
      exact absurd (left_eq_add.mp hother) (by decide : (1 : U32) ≠ 0)
    · rintro ⟨hone, hzero⟩ memory
      rw [trueErrors_array_iff n ⟨now, memory⟩ src dest hop h hnone]
      intro j hj i e he hip
      have hj0 : j = 0 := by omega
      subst hj0
      rw [hlow memory _ (by decide)] at hip ⊢
      exact (hopPair_iff n ⟨now, memory⟩ src dest hop h).mpr hzero i e he hip

end Break

/-! ### All errors -/

/-- The RERRs a node passes on are true. Those it sends upon a forwarded packet are true,
    whatever memory holds, exactly if a refused packet's entry with its address stores
    that address as its number, and a link break's error says nothing or names the next
    hop alone, with a number the loop has not raised. -/
theorem errors_true_iff (n : Node) (now : Timespec) (src dest : U32)
    (hlen : ∀ hop, TakesLinkBreak n dest hop → hop.nextHopFor.length < 2 ^ 32) :
    (∀ env s header destPairs,
      TrueErrors n { env := env, event := .control s (.rerr header destPairs) }) ∧
    ((∀ memory, TrueErrors n ⟨⟨now, memory⟩, .forwarded src dest⟩) ↔
      (∀ destination, Refuses n dest destination →
        destination.destIp = dest → destination.destSeq = dest) ∧
      ∀ hop, TakesLinkBreak n dest hop → pairsAnnounced n hop = 0 ∨
        (pairsAnnounced n hop = 1 ∧
          BitVec.ofNat 32 (countIn (slotOf hop.destIp) hop.nextHopFor) = 0)) := by
  refine ⟨trueErrors_passedOn n, ?_⟩
  constructor
  · intro htrue
    refine ⟨fun destination hrefused => ?_, fun hop hbreak => ?_⟩
    · exact (trueErrors_refused_iff n ⟨now, fun _ _ => 0⟩ src dest destination hrefused).mp
        (htrue _)
    · exact (trueErrors_break_iff n src dest hop now hbreak (hlen hop hbreak)).mp htrue
  · rintro ⟨hrefusal, hbreaks⟩ memory
    cases hdest : n.getRoutingEntry dest with
    | none => exact trueErrors_unknown n ⟨now, memory⟩ src dest hdest
    | some destination =>
        by_cases hrefused : Refuses n dest destination
        · exact (trueErrors_refused_iff n ⟨now, memory⟩ src dest destination hrefused).mpr
            (hrefusal destination hrefused)
        · -- The route is valid and its next hop has an entry.
          have hvalid : destination.status = .routeValid := by
            cases hstatus : destination.status with
            | routeInvalid => exact absurd ⟨hdest, Or.inl hstatus⟩ hrefused
            | routeValid => rfl
          cases hhop : n.getRoutingEntry destination.nextHop with
          | none => exact absurd ⟨hdest, Or.inr hhop⟩ hrefused
          | some hop =>
              cases hstatus : hop.status with
              | routeValid =>
                  exact trueErrors_of_none n _ [] (step_passed n ⟨now, memory⟩ src dest
                    destination hop hdest hvalid hhop hstatus) (fun _ _ => List.not_mem_nil)
              | routeInvalid =>
                  have hbreak : TakesLinkBreak n dest hop :=
                    ⟨destination, hdest, hvalid, hhop, hstatus⟩
                  exact (trueErrors_break_iff n src dest hop now hbreak (hlen hop hbreak)).mpr
                    (hbreaks hop hbreak) memory

theorem errors_true_iff_lostNeighbour :
    TrueErrors (run step (Node.boot 0x01000000 0xFF000000 fun _ => 0) lostNeighbour)
      ⟨.clear, .forwarded 0x06000000 0x03000000⟩ := by
  have hdest : ∃ destination hop,
      (run step (Node.boot 0x01000000 0xFF000000 fun _ => 0) lostNeighbour).getRoutingEntry
        0x03000000 = some destination ∧ destination.status = .routeValid ∧
      (run step (Node.boot 0x01000000 0xFF000000 fun _ => 0) lostNeighbour).getRoutingEntry
        destination.nextHop = some hop ∧ hop.nextHopFor = [0x03000000] ∧
      hop.destIp = 0x02000000 := ⟨_, _, rfl, rfl, rfl, rfl, rfl⟩
  rcases hdest with ⟨destination, hop, hdest, hvalid, hhop, hlist, hip⟩
  -- There is one next hop to lose.
  have honly : ∀ hop', TakesLinkBreak
      (run step (Node.boot 0x01000000 0xFF000000 fun _ => 0) lostNeighbour) 0x03000000 hop' →
      hop' = hop := by
    rintro hop' ⟨destination', hdest', -, hhop', -⟩
    cases hdest.symm.trans hdest'
    exact Option.some.inj (hhop'.symm.trans hhop)
  refine (errors_true_iff (run step (Node.boot 0x01000000 0xFF000000 fun _ => 0) lostNeighbour)
    Env.clear.now 0x06000000 0x03000000 (fun hop' hbreak => ?_)).2.mpr
    ⟨fun destination' hrefused => ?_, fun hop' hbreak => ?_⟩ Env.clear.memory
  · rw [honly hop' hbreak, hlist]
    decide
  · rcases hrefused with ⟨hdest', hstatus | hnone⟩
    · cases hdest.symm.trans hdest'
      cases hvalid.symm.trans hstatus
    · cases hdest.symm.trans hdest'
      cases hhop.symm.trans hnone
  · rw [honly hop' hbreak, pairsAnnounced, hlist, hip]
    exact Or.inr ⟨rfl, rfl⟩

/-- A route to 3.0.0.0 is learned and lost again. -/
def lostRoute : List Input :=
  [receive 0x02000000 (replyAfter 1 0x03000000 5 0x01000000),
    receive 0x02000000 (errorAbout 0x03000000 6)]

/-- The error about a packet for 3.0.0.0 gives its address as its number, which is 6. -/
theorem not_errors_true_lostRoute :
    ¬ TrueErrors (run step (Node.boot 0x01000000 0xFF000000 fun _ => 0) lostRoute)
      ⟨.clear, .forwarded 0x06000000 0x03000000⟩ := by
  intro htrue
  have hseq := htrue (rerrHeader 0 1) [0x03000000, 0x03000000] (List.mem_singleton.mpr rfl)
    (0x03000000, 0x03000000) (List.mem_singleton.mpr rfl) 3 _ rfl rfl
  exact absurd hseq (by decide)

end OpenManet
