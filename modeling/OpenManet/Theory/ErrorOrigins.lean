import OpenManet.Theory.Destinations
import OpenManet.Theory.ErrorNumbers
import OpenManet.Theory.SentErrors

/-!
# Where a Route Error Comes From

A RERR that a node passes on names the entries it has just taken down, and these are
entries whose valid route went over the node the RERR came from. It gives them the numbers
it was received with. So an error in the air can be followed back, from node to node
against the routes that were lost, and the way back ends where a packet came in that the
node could not pass on. The number named is the one stated there.

The address named may change on the way where two addresses share a slot, since a node
names the entry it finds and not the address it was asked about; it stays in its slot.

## Main definitions

* `Node.HasWay`: The node can pass packets for the destination on.
* `errorPairs`: The pairs a RERR announces.
* `Reported`: A node has named a pair, with the way it has come.

## Theorems

* `relayed_pairs`: What is passed on of a RERR.
* `reported_begun`: Where an error has begun.
* `errors_traced`: Every error in the air can be followed back.
-/

namespace OpenManet

/-- The route to the destination is valid and so is the route to its next hop. -/
def Node.HasWay (dest : U32) (n : Node) : Prop :=
  ∃ destination hop, n.getRoutingEntry dest = some destination ∧
    destination.status = .routeValid ∧ n.getRoutingEntry destination.nextHop = some hop ∧
      hop.status = .routeValid

/-- The pairs a RERR with these words announces. -/
def errorPairs (header : RerrHeader) (words : List U32) : List (U32 × U32) :=
  rerrPairs header.destCount fun i => words.getD i 0

/-- The pairs of a RERR whose words are taken from an array. -/
theorem errorPairs_of_array (header : RerrHeader) (array : Nat → U32) :
    errorPairs header ((List.range (2 * header.destCount.toNat)).map array) =
      rerrPairs header.destCount array :=
  rerrPairs_of_words _ _ array fun k hk => map_range_getD array _ k 0 hk

/-- The words hold all the pairs the header counts. -/
def HoldsPairs (header : RerrHeader) (words : List U32) : Prop :=
  2 * header.destCount.toNat ≤ words.length

/-! ### One step -/

/-- Every RERR a node sends holds its pairs. -/
theorem stepCalls_holdsPairs (n : Node) (input : Input) :
    ∀ c ∈ stepCalls n input, ∀ header words, c.packet = some (.rerr header words) →
      HoldsPairs header words := by
  have hpassed : ErrorsPassedOn HoldsPairs := by
    intro l header words hpacket
    rcases rerrPacket_words l header words hpacket with ⟨rfl, rfl⟩
    unfold HoldsPairs
    rw [List.length_map, List.length_range]
    exact Nat.le_refl _
  have hown : ErrorsOwn HoldsPairs := by
    refine ⟨fun _ _ => Nat.le_refl 2, fun env l header words hpacket => ?_⟩
    rcases breakPacket_words env l header words hpacket with ⟨rfl, hlen⟩
    -- The count is narrowed in the header only.
    have hnarrow : (l.numDests.setWidth 8).toNat ≤ l.numDests.toNat := by
      rw [BitVec.toNat_setWidth]
      exact Nat.mod_le _ _
    show 2 * (l.numDests.setWidth 8).toNat ≤ words.length
    omega
  exact stepCalls_errorMeets n input (fun _ _ _ _ => hpassed) (fun _ _ _ => hown)

/-- No RERR is sent upon anything but a RERR or a forwarded packet. -/
theorem event_of_error (n : Node) (input : Input) (c : ApiCall) (hc : c ∈ stepCalls n input)
    (header : RerrHeader) (words : List U32) (hpacket : c.packet = some (.rerr header words)) :
    (∃ s header₀ destPairs, input.event = .control s (.rerr header₀ destPairs)) ∨
      ∃ src dest, input.event = .forwarded src dest := by
  by_contra hneither
  rcases not_or.mp hneither with ⟨hno, hno'⟩
  exact stepCalls_errorMeets (P := fun _ _ => False) n input
    (fun s header₀ destPairs hevent => absurd ⟨s, header₀, destPairs, hevent⟩ hno)
    (fun src dest hevent => absurd ⟨src, dest, hevent⟩ hno') c hc header words hpacket

theorem mem_of_firstPairs (pairs : List (U32 × U32)) (p : U32 × U32) (h : p ∈ firstPairs pairs) :
    p ∈ pairs :=
  List.mem_of_find?_eq_some (find?_of_firstPairs pairs p h)

/-- The packets of a step, as the calls that send them. -/
theorem mem_packets (n : Node) (input : Input) (c : ApiCall) (hc : c ∈ stepCalls n input)
    (packet : Packet) (hpacket : c.packet = some packet) :
    packet ∈ (stepCalls n input).filterMap ApiCall.packet :=
  List.mem_filterMap.mpr ⟨c, hc, hpacket⟩

/-- What is passed on of a RERR names entries whose valid route went over its sender, each
    under the number it came with. -/
theorem relayed_pairs (n : Node) (env : Env) (s : U32) (header₀ : RerrHeader)
    (destPairs : Nat → U32) (c : ApiCall)
    (hc : c ∈ stepCalls n { env := env, event := .control s (.rerr header₀ destPairs) })
    (header : RerrHeader) (words : List U32) (hpacket : c.packet = some (.rerr header words)) :
    ∀ p' ∈ errorPairs header words, ∃ p ∈ rerrPairs header₀.destCount destPairs,
      ∃ e, n.getRoutingEntry p.1 = some e ∧ e.goesThrough s = true ∧ e.precursorList ≠ [] ∧
        p' = (e.destIp, p.2) := by
  intro p' hp'
  have hsent := mem_packets n _ c hc _ hpacket
  have hstep := step_rerr n env s header₀ destPairs
  by_cases hown : s = n.ipAddress
  · -- A node does not listen to itself.
    rw [if_pos hown] at hstep
    rw [sends_of_sentPackets n _ [] (by rw [hstep]; rfl)] at hsent
    exact absurd hsent List.not_mem_nil
  · rcases recvRerr_sends env s header₀ destPairs n with ⟨l, hl, hpackets⟩
    rw [if_neg hown] at hstep
    rw [sends_of_sentPackets n _ _ (hstep ▸ hpackets)] at hsent
    by_cases hzero : l.numDests = 0
    · rw [if_pos hzero] at hsent
      exact absurd hsent List.not_mem_nil
    · rw [if_neg hzero] at hsent
      have hsame : l.packet = .rerr header words := (List.mem_singleton.mp hsent).symm
      rcases rerrPacket_words l header words hsame with ⟨rfl, rfl⟩
      -- Each pair sent lies below the count, so it is one of those collected.
      have hbelow : p' ∈ rerrPairs (rerrHeader 0 (l.numDests / 2)).destCount l.pairs := by
        rw [← errorPairs_of_array]
        exact hp'
      rcases List.mem_map.mp hbelow with ⟨j, hj, rfl⟩
      have hhalf : (l.numDests / 2).toNat = l.numDests.toNat / 2 := BitVec.toNat_udiv
      have hj : j < (l.numDests / 2).toNat := List.mem_range.mp hj
      rcases List.mem_filterMap.mp (hl.among j (by omega)) with ⟨p, hfirst, hpassed⟩
      refine ⟨p, mem_of_firstPairs _ p hfirst, ?_⟩
      unfold passedOn at hpassed
      cases he : n.getRoutingEntry p.1 with
      | none =>
          rw [he] at hpassed
          cases hpassed
      | some e =>
          rw [he] at hpassed
          simp only [Option.ite_none_right_eq_some, Option.some.injEq] at hpassed
          exact ⟨e, rfl, hpassed.1.1, hpassed.1.2, hpassed.2.symm⟩

/-- An error about a forwarded packet is sent by a node that has no way for it. -/
theorem noWay_of_error (n : Node) (env : Env) (src dest : U32) (c : ApiCall)
    (hc : c ∈ stepCalls n { env := env, event := .forwarded src dest })
    (header : RerrHeader) (words : List U32) (hpacket : c.packet = some (.rerr header words)) :
    ¬ n.HasWay dest := by
  rintro ⟨destination, hop, hdest, hvalid, hhop, hup⟩
  have hsent := mem_packets n _ c hc _ hpacket
  rw [sends_of_sentPackets n _ []
    (step_passed n env src dest destination hop hdest hvalid hhop hup)] at hsent
  exact absurd hsent List.not_mem_nil

/-! ### The network -/

section Network

variable {ι : Type} [DecidableEq ι]

/-- After the inputs the node has sent a RERR with the pair: about a packet it could not
    pass on, or upon a RERR of another node with the pair for an entry whose valid route
    went over that node. -/
inductive Reported (net₀ : Network ι) : List (NetInput ι) → ι → U32 × U32 → Prop where
  | own (inputs : List (NetInput ι)) (a : NetInput ι) (src dest : U32) (c : ApiCall)
      (header : RerrHeader) (words : List U32) (p : U32 × U32)
      (hevent : a.input.event = .forwarded src dest)
      (hsent : c ∈ stepCalls (run netStep net₀ inputs a.node) a.input)
      (hpacket : c.packet = some (.rerr header words)) (hp : p ∈ errorPairs header words) :
      Reported net₀ (inputs ++ [a]) a.node p
  | passedOn (inputs : List (NetInput ι)) (a : NetInput ι) (i : ι) (header : RerrHeader)
      (destPairs : Nat → U32) (p : U32 × U32) (e : RoutingEntry) (h : Reported net₀ inputs i p)
      (hevent : a.input.event = .control (net₀ i).ipAddress (.rerr header destPairs))
      (hp : p ∈ rerrPairs header.destCount destPairs)
      (hfound : (run netStep net₀ inputs a.node).getRoutingEntry p.1 = some e)
      (hthrough : e.goesThrough (net₀ i).ipAddress = true) (hprecursors : e.precursorList ≠ []) :
      Reported net₀ (inputs ++ [a]) a.node (e.destIp, p.2)
  | later (inputs : List (NetInput ι)) (a : NetInput ι) (i : ι) (p : U32 × U32)
      (h : Reported net₀ inputs i p) : Reported net₀ (inputs ++ [a]) i p

/-- The way back ends at a node that had no way for a packet: it has stated the number,
    for an address of the same slot. -/
theorem reported_begun (net₀ : Network ι) (inputs : List (NetInput ι)) (i : ι) (p : U32 × U32)
    (h : Reported net₀ inputs i p) : ∃ before a rest src dest header words ip,
      inputs = before ++ a :: rest ∧ a.input.event = .forwarded src dest ∧
      ¬ (run netStep net₀ before a.node).HasWay dest ∧
      (.rerr header words) ∈ (stepCalls (run netStep net₀ before a.node) a.input).filterMap
        ApiCall.packet ∧ (ip, p.2) ∈ errorPairs header words ∧ slotOf ip = slotOf p.1 := by
  induction h with
  | own inputs a src dest c header words p hevent hsent hpacket hp =>
      refine ⟨inputs, a, [], src, dest, header, words, p.1, rfl, hevent, ?_,
        mem_packets _ _ c hsent _ hpacket, hp, rfl⟩
      rcases a with ⟨node, env, event⟩
      cases hevent
      exact noWay_of_error _ env src dest c hsent header words hpacket
  | passedOn inputs a i header destPairs p e h hevent hp hfound hthrough hprecursors ih =>
      rcases ih with ⟨before, b, rest, src, dest, header', words, ip, rfl, hb, hway, hsent, hpair,
        hslot⟩
      refine ⟨before, b, rest ++ [a], src, dest, header', words, ip, ?_, hb, hway, hsent, hpair, ?_⟩
      · rw [List.append_assoc, List.cons_append]
      · -- The entry found lies in the slot of the address it was asked about.
        rw [hslot]
        exact ((run netStep net₀ (before ++ b :: rest) a.node).routes.keyed _ e hfound).symm
  | later inputs a i p h ih =>
      rcases ih with ⟨before, b, rest, src, dest, header', words, ip, rfl, hrest⟩
      refine ⟨before, b, rest ++ [a], src, dest, header', words, ip, ?_, hrest⟩
      rw [List.append_assoc, List.cons_append]

/-- The RERRs a node has sent hold their pairs and can be followed back. -/
structure Traced (net₀ : Network ι) (inputs : List (NetInput ι)) (i : ι) : Prop where
  pairs : ∀ c ∈ (run netStep net₀ inputs i).log, ∀ header words,
    c.packet = some (.rerr header words) → HoldsPairs header words
  reported : ∀ c ∈ (run netStep net₀ inputs i).log, ∀ header words,
    c.packet = some (.rerr header words) → ∀ p ∈ errorPairs header words,
      Reported net₀ inputs i p

/-- The pairs read from a RERR are those that were sent. -/
theorem pairs_of_carries (header : RerrHeader) (words : List U32) (destPairs : Nat → U32)
    (hholds : HoldsPairs header words)
    (hwords : ∀ i (hi : i < words.length), destPairs i = words[i]) :
    rerrPairs header.destCount destPairs = errorPairs header words := by
  refine rerrPairs_of_words _ _ _ fun k hk => ?_
  have hin : k < words.length := Nat.lt_of_lt_of_le hk hholds
  rw [hwords k hin, List.getD_eq_getElem?_getD, List.getElem?_eq_getElem hin]
  rfl

/-- What a node sends in a step can be followed back through what has arrived. -/
theorem traced_new (net₀ : Network ι) (inputs : List (NetInput ι)) (a : NetInput ι)
    (htraced : ∀ i, Traced net₀ inputs i) (hcarried : Carried (run netStep net₀ inputs) a)
    (c : ApiCall) (hc : c ∈ stepCalls (run netStep net₀ inputs a.node) a.input)
    (header : RerrHeader) (words : List U32) (hpacket : c.packet = some (.rerr header words)) :
    ∀ p ∈ errorPairs header words, Reported net₀ (inputs ++ [a]) a.node p := by
  intro p' hp'
  rcases event_of_error _ a.input c hc header words hpacket with
    ⟨s, header₀, destPairs, hevent⟩ | ⟨src, dest, hevent⟩
  · rcases a with ⟨node, env, event⟩
    cases hevent
    rcases relayed_pairs _ env s header₀ destPairs c hc header words hpacket p' hp' with
      ⟨p, hp, e, hfound, hthrough, hprecursors, rfl⟩
    -- The RERR that has come in was sent by the node it is said to come from.
    rcases hcarried with ⟨i, packet, hs, hcarries, hsent⟩
    rw [run_ipAddress] at hs
    cases packet with
    | rerr header' words' =>
        rcases hcarries with ⟨rfl, hwords⟩
        have hlog : ∃ c' ∈ (run netStep net₀ inputs i).log,
            c'.packet = some (.rerr header' words') := by
          rcases hsent with hsent | hsent
          · exact ⟨_, hsent, rfl⟩
          · exact ⟨_, hsent, rfl⟩
        rcases hlog with ⟨c', hc', hpacket'⟩
        have hholds := (htraced i).pairs c' hc' header' words' hpacket'
        have hnamed : p ∈ errorPairs header' words' := by
          rw [← pairs_of_carries header' words' destPairs hholds hwords]
          exact hp
        have hbefore := (htraced i).reported c' hc' header' words' hpacket' p hnamed
        rw [← hs] at hthrough
        exact .passedOn inputs _ i header' destPairs p e hbefore (by rw [hs]) hp hfound hthrough
          hprecursors
    | rreq | rrep | null | timing => exact absurd hcarries id
  · exact .own inputs a src dest c header words p' hevent hc hpacket hp'

theorem run_traced (net₀ : Network ι)
    (hboot : ∀ i, ∃ ip bcast hello, net₀ i = Node.boot ip bcast hello)
    (inputs : List (NetInput ι)) (hcarried : AllSteps netStep Carried net₀ inputs) (i : ι) :
    Traced net₀ inputs i := by
  induction inputs using List.reverseRecOn generalizing i with
  | nil =>
      rcases hboot i with ⟨ip, bcast, hello, hnode⟩
      have hnone : (run netStep net₀ [] i).log = [] := by
        rw [run_nil, hnode]
        rfl
      refine ⟨fun c hc => ?_, fun c hc => ?_⟩
      · rw [hnone] at hc
        exact absurd hc List.not_mem_nil
      · rw [hnone] at hc
        exact absurd hc List.not_mem_nil
  | append_singleton inputs a ih =>
      rcases (allSteps_append netStep Carried net₀ inputs [a]).mp hcarried
        with ⟨hbefore, hnow, -⟩
      have htraced := ih hbefore
      have hold : ∀ i, ∀ c ∈ (run netStep net₀ inputs i).log, ∀ header words,
          c.packet = some (.rerr header words) → HoldsPairs header words ∧
            ∀ p ∈ errorPairs header words, Reported net₀ (inputs ++ [a]) i p :=
        fun i c hc header words hpacket => ⟨(htraced i).pairs c hc header words hpacket,
          fun p hp => .later inputs a i p ((htraced i).reported c hc header words hpacket p hp)⟩
      -- What a node has sent it sent before, or it is the node of this step.
      have hboth : ∀ c ∈ (run netStep net₀ (inputs ++ [a]) i).log, ∀ header words,
          c.packet = some (.rerr header words) → HoldsPairs header words ∧
            ∀ p ∈ errorPairs header words, Reported net₀ (inputs ++ [a]) i p := by
        intro c hc header words hpacket
        rw [run_append, run_cons, run_nil] at hc
        by_cases hnode : i = a.node
        · rw [hnode, netStep_self, log_step] at hc
          rcases List.mem_append.mp hc with hnew | hlog
          · rw [hnode]
            exact ⟨stepCalls_holdsPairs _ a.input c hnew header words hpacket,
              traced_new net₀ inputs a htraced hnow c hnew header words hpacket⟩
          · rw [hnode]
            exact hold a.node c hlog header words hpacket
        · rw [netStep_ne _ a i hnode] at hc
          exact hold i c hc header words hpacket
      exact ⟨fun c hc header words hpacket => (hboth c hc header words hpacket).1,
        fun c hc header words hpacket => (hboth c hc header words hpacket).2⟩

/-- In every run from start-up in which the messages that arrive have been sent, every pair
    of every RERR in the air can be followed back, from node to node along valid routes
    that were lost; and where it has begun a node had no way for a packet, and stated the
    number the pair still has. -/
theorem errors_traced (net₀ : Network ι)
    (hboot : ∀ i, ∃ ip bcast hello, net₀ i = Node.boot ip bcast hello)
    (inputs : List (NetInput ι)) (hcarried : AllSteps netStep Carried net₀ inputs) (i : ι)
    (header : RerrHeader) (words : List U32)
    (h : (run netStep net₀ inputs i).HasSent (.rerr header words)) (p : U32 × U32)
    (hp : p ∈ errorPairs header words) :
    Reported net₀ inputs i p ∧ ∃ before a rest src dest header' words' ip,
      inputs = before ++ a :: rest ∧ a.input.event = .forwarded src dest ∧
      ¬ (run netStep net₀ before a.node).HasWay dest ∧
      (.rerr header' words') ∈ (stepCalls (run netStep net₀ before a.node) a.input).filterMap
        ApiCall.packet ∧ (ip, p.2) ∈ errorPairs header' words' ∧ slotOf ip = slotOf p.1 := by
  have htraced := run_traced net₀ hboot inputs hcarried i
  have hreported : Reported net₀ inputs i p := by
    rcases h with h | ⟨dest, h⟩
    · exact htraced.reported _ h header words rfl p hp
    · exact htraced.reported _ h header words rfl p hp
  exact ⟨hreported, reported_begun net₀ inputs i p hreported⟩

end Network

/-- The route of the second node to the third runs out, and a packet of the first for the
    third comes in. -/
def rowLost : List (NetInput (Fin 3)) :=
  rowAnswered ++ [⟨Row.middle, { env := .clear, event := .expire 0x03000000 }⟩,
    ⟨Row.middle, { env := .clear, event := .forwarded 0x01000000 0x03000000 }⟩]

theorem errors_traced_row :
    (run netStep (Network.boot 3) rowLost 1).HasSent
        (.rerr (rerrHeader 0 1) [0x03000000, 0x03000000]) ∧
      Reported (Network.boot 3) rowLost 1 (0x03000000, 0x03000000) := by
  have hsent : (run netStep (Network.boot 3) rowLost 1).HasSent
      (.rerr (rerrHeader 0 1) [0x03000000, 0x03000000]) := Or.inl (by decide +kernel)
  have hcarried : AllSteps netStep Carried (Network.boot 3) rowLost :=
    (allSteps_append _ _ _ _ _).mpr
      ⟨AllSteps.imp netStep (fun net a h => carried_of_overLinks rowLinks net a h) _ _
        overLinks_rowAnswered, trivial, trivial, trivial⟩
  exact ⟨hsent, (errors_traced (Network.boot 3) (fun _ => ⟨_, _, _, rfl⟩) rowLost hcarried 1 _ _
    hsent _ (List.mem_singleton.mpr rfl)).1⟩

end OpenManet
