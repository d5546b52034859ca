import OpenManet.Theory.Freshness
import OpenManet.Theory.Precursors
import OpenManet.Theory.RouteErrors
import OpenManet.Theory.WireFormat

/-!
# What a Route Error Does

A RERR names destinations its sender can no longer reach. What it should do to a table
can be said without going through the pairs in order: of the entries that have a valid
route over the sender, those some pair finds are invalidated, each with the number of
the first pair that finds it. The ones among them with precursors are passed on, in the
order of these pairs.

The loop does that to the table for every list of pairs, since an entry it has
invalidated is not one it looks at again. What it passes on it collects under an index
of eight bits that goes up by two, and so it is complete up to 127 destinations. With
the next one the index comes back to zero, and nothing is sent, or only the pairs that
follow.

## Main definitions

* `firstPairs`, `toPassOn`: What is to be passed on.
* `errorLeaves`: What is to become of an entry.
* `RerrExact`: A RERR does both and nothing else.
* `Collected`: What the locals of the loop hold.

## Theorems

* `rerrLoop_table`, `rerrLoop_sends`: What the loop does.
* `collected_packet`: The packet sent of what has been collected.
* `rerr_exact_iff`: The handler is exact as long as the index does not come back.
-/

namespace OpenManet

/-- The packets a node has sent, the last one first. -/
def Node.sentPackets (n : Node) : List Packet := n.log.filterMap ApiCall.packet

/-- The pairs that are the first to look in their slot. -/
def firstPairs : List (U32 × U32) → List (U32 × U32)
  | [] => []
  | p :: rest => p :: (firstPairs rest).filter fun q => slotOf q.1 ≠ slotOf p.1

/-- A pair that finds a route over the sender with precursors, as it is to be passed on. -/
def passedOn (s : U32) (n : Node) (p : U32 × U32) : Option (U32 × U32) :=
  match n.getRoutingEntry p.1 with
  | none => none
  | some e => if e.goesThrough s ∧ e.precursorList ≠ [] then some (e.destIp, p.2) else none

/-- The pairs to be passed on. -/
def toPassOn (s : U32) (n : Node) (pairs : List (U32 × U32)) : List (U32 × U32) :=
  (firstPairs pairs).filterMap (passedOn s n)

/-- What is to become of an entry in a slot: a route over the sender is broken by the
    first pair that finds it. -/
def errorLeaves (env : Env) (s : U32) (pairs : List (U32 × U32)) (i : Fin 256)
    (e : RoutingEntry) : RoutingEntry :=
  if e.goesThrough s then
    match pairs.find? (fun p => slotOf p.1 = i) with
    | none => e
    | some p => e.breakRoute env p.2
  else e

/-- The table is left as it should be, and the RERR sent, if there is anything to pass
    on, says just that. -/
structure RerrExact (env : Env) (s : U32) (pairs : List (U32 × U32)) (n n' : Node) : Prop where
  table : ∀ i, n'.routes.slots i = (n.routes.slots i).map (errorLeaves env s pairs i)
  quiet : toPassOn s n pairs = [] → n'.sentPackets = n.sentPackets
  sent : toPassOn s n pairs ≠ [] → ∃ header,
    n'.sentPackets = .rerr header (pairWords (toPassOn s n pairs)) :: n.sentPackets ∧
    header.destCount.toNat = (toPassOn s n pairs).length

/-! ### The table -/

theorem breakRoute_goesThrough (env : Env) (s destSeq : U32) (e : RoutingEntry) :
    (e.breakRoute env destSeq).goesThrough s = false := Bool.and_false _

theorem errorLeaves_of_not (env : Env) (s : U32) (pairs : List (U32 × U32)) (i : Fin 256)
    (e : RoutingEntry) (h : e.goesThrough s = false) : errorLeaves env s pairs i e = e :=
  if_neg (by rw [h]; decide)

/-- A pair for another slot does nothing to the entry. -/
theorem errorLeaves_cons_ne (env : Env) (s : U32) (p : U32 × U32) (rest : List (U32 × U32))
    (i : Fin 256) (e : RoutingEntry) (h : slotOf p.1 ≠ i) :
    errorLeaves env s (p :: rest) i e = errorLeaves env s rest i e := by
  unfold errorLeaves
  rw [List.find?_cons_of_neg (by rw [decide_eq_true_eq]; exact h)]

theorem errorLeaves_cons_eq (env : Env) (s : U32) (p : U32 × U32) (rest : List (U32 × U32))
    (i : Fin 256) (e : RoutingEntry) (h : slotOf p.1 = i) (hthrough : e.goesThrough s = true) :
    errorLeaves env s (p :: rest) i e = e.breakRoute env p.2 := by
  unfold errorLeaves
  rw [if_pos hthrough, List.find?_cons_of_pos (by rw [decide_eq_true_eq]; exact h)]

theorem breakRoute_slots (env : Env) (ip destSeq : U32) (n : Node) (i : Fin 256) :
    ((Op.breakRoute env ip destSeq).apply n).routes.slots i =
      if i = slotOf ip then (n.routes.slots i).map (RoutingEntry.breakRoute env destSeq)
      else n.routes.slots i := by
  rw [apply_slots]
  simp only [Op.effect, Effect.slot]

theorem rerrLoop_table (env : Env) (s : U32) (pairs : List (U32 × U32)) (l : RerrLocals) (n : Node)
    (i : Fin 256) : ((rerrLoop env s pairs l).exec Op.apply n).1.routes.slots i =
      (n.routes.slots i).map (errorLeaves env s pairs i) := by
  induction pairs generalizing l n with
  | nil =>
      have hnothing : errorLeaves env s [] i = id := by
        funext e
        unfold errorLeaves
        split <;> rfl
      rw [hnothing, Option.map_id_fun]
      unfold rerrLoop
      split
      · rfl
      · unfold RerrTarget.send
        split <;> rfl
  | cons p rest ih =>
      simp only [rerrLoop, Prog.exec]
      cases he : n.getRoutingEntry p.1 with
      | none =>
          -- The pair finds nothing, and so does what should become of the slot.
          rw [ih l n]
          by_cases hi : slotOf p.1 = i
          · rw [← hi, ← Node.getRoutingEntry_eq, he]
            rfl
          · exact congrArg (Option.map · _)
              (funext fun e => (errorLeaves_cons_ne env s p rest i e hi).symm)
      | some e =>
          by_cases hthrough : e.goesThrough s = true
          · simp only [if_pos hthrough, Prog.exec]
            rw [ih, breakRoute_slots]
            by_cases hi : i = slotOf p.1
            · -- Once broken the entry is none of the routes over the sender.
              rw [if_pos hi, hi, ← Node.getRoutingEntry_eq, he, Option.map_some, Option.map_some,
                Option.map_some, errorLeaves_of_not _ _ _ _ _ (breakRoute_goesThrough env s p.2 e),
                errorLeaves_cons_eq env s p rest _ e rfl hthrough]
            · rw [if_neg hi]
              exact congrArg (Option.map · _)
                (funext fun e => (errorLeaves_cons_ne env s p rest i e (Ne.symm hi)).symm)
          · simp only [if_neg hthrough]
            rw [ih l n]
            by_cases hi : slotOf p.1 = i
            · have hnot : e.goesThrough s = false := Bool.eq_false_iff.mpr hthrough
              rw [← hi, ← Node.getRoutingEntry_eq, he, Option.map_some, Option.map_some,
                errorLeaves_of_not _ _ _ _ _ hnot, errorLeaves_of_not _ _ _ _ _ hnot]
            · exact congrArg (Option.map · _)
                (funext fun e => (errorLeaves_cons_ne env s p rest i e hi).symm)

/-! ### The pairs collected -/

/-- The locals of the loop hold these pairs. The count is kept in eight bits, and past
    128 pairs the first ones are overwritten; those below the count are always some of
    the pairs collected. -/
structure Collected (l : RerrLocals) (ps : List (U32 × U32)) : Prop where
  count : l.numDests.toNat = 2 * ps.length % 256
  pairs : ps.length ≤ 128 → ∀ j (hj : j < ps.length),
    l.pairs (2 * j) = ps[j].1 ∧ l.pairs (2 * j + 1) = ps[j].2
  among : ∀ j, 2 * j < l.numDests.toNat → (l.pairs (2 * j), l.pairs (2 * j + 1)) ∈ ps

theorem writePair_self (pairs : Nat → U32) (index : Nat) (a b : U32) :
    writePair pairs index a b index = a ∧ writePair pairs index a b (index + 1) = b := by
  constructor
  · exact if_pos rfl
  · exact (if_neg (Nat.succ_ne_self index)).trans (if_pos rfl)

theorem writePair_ne (pairs : Nat → U32) (index i : Nat) (a b : U32) (h : i ≠ index)
    (h' : i ≠ index + 1) : writePair pairs index a b i = pairs i :=
  (if_neg h).trans (if_neg h')

theorem collected_collect (l : RerrLocals) (ps : List (U32 × U32)) (e : RoutingEntry)
    (destSeq : U32) (he : e.precursorList ≠ []) (h : Collected l ps) :
    Collected (l.collect e destSeq) (ps ++ [(e.destIp, destSeq)]) := by
  have hcount := h.count
  unfold RerrLocals.collect
  rw [if_pos he]
  have hnext : (l.numDests + 2).toNat = 2 * (ps.length + 1) % 256 := by
    rw [BitVec.toNat_add, two_toNat]
    omega
  refine ⟨?_, fun hlen j hj => ?_, fun j hj => ?_⟩
  · rw [List.length_append, List.length_singleton]
    exact hnext
  · -- Up to 128 pairs the index has not come back.
    rw [List.length_append, List.length_singleton] at hlen hj
    have hindex : l.numDests.toNat = 2 * ps.length := by omega
    simp only [hindex]
    by_cases hlast : j = ps.length
    · subst hlast
      rw [List.getElem_append_right (Nat.le_refl _)]
      simp only [Nat.sub_self, List.getElem_singleton]
      exact writePair_self l.pairs _ _ _
    · have hold : j < ps.length := by omega
      rw [List.getElem_append_left hold, writePair_ne _ _ _ _ _ (by omega) (by omega),
        writePair_ne _ _ _ _ _ (by omega) (by omega)]
      exact h.pairs (by omega) j hold
  · simp only [] at hj
    rw [hnext] at hj
    by_cases hlast : 2 * j = l.numDests.toNat
    · refine List.mem_append_right _ (List.mem_singleton.mpr ?_)
      simp only [hlast]
      rw [(writePair_self l.pairs _ _ _).1, (writePair_self l.pairs _ _ _).2]
    · refine List.mem_append_left _ ?_
      simp only []
      rw [writePair_ne _ _ _ _ _ hlast (by omega), writePair_ne _ _ _ _ _ (by omega) (by omega)]
      exact h.among j (by omega)

/-- The words of the array are the pairs collected, while none is overwritten. -/
theorem collected_words (l : RerrLocals) (ps : List (U32 × U32)) (h : Collected l ps)
    (hlen : ps.length ≤ 128) : (List.range (2 * ps.length)).map l.pairs = pairWords ps := by
  have hprefix : ∀ k, k ≤ ps.length →
      (List.range (2 * k)).map l.pairs = pairWords (ps.take k) := by
    intro k hk
    induction k with
    | zero => rfl
    | succ k ih =>
        have hword := h.pairs hlen k (by omega)
        rw [List.take_add_one, List.getElem?_eq_getElem (by omega), Option.toList_some, pairWords,
          List.flatMap_append, ← pairWords, ← ih (by omega)]
        rw [show 2 * (k + 1) = 2 * k + 1 + 1 by omega, List.range_succ, List.range_succ,
          List.map_append, List.map_append, List.append_assoc, List.map_singleton,
          List.map_singleton, hword.1, hword.2]
        rfl
  have hall := hprefix ps.length (Nat.le_refl _)
  rw [List.take_length] at hall
  exact hall

/-- The packet of what has been collected. -/
theorem collected_packet (l : RerrLocals) (ps : List (U32 × U32)) (h : Collected l ps)
    (hsome : l.numDests ≠ 0) : ∃ header, l.packet =
      .rerr header ((List.range (2 * header.destCount.toNat)).map l.pairs) ∧
      header.destCount.toNat = ps.length % 128 := by
  have hcount := h.count
  have hne : l.numDests.toNat ≠ 0 := fun hzero => hsome (BitVec.eq_of_toNat_eq hzero)
  have hhalf : (l.numDests / 2).toNat = ps.length % 128 := by
    rw [BitVec.toNat_udiv, two_toNat]
    omega
  have hhalf_ne : l.numDests / 2 ≠ 0 := by
    intro hzero
    rw [hzero] at hhalf
    have hz : (0 : Byte).toNat = 0 := rfl
    omega
  refine ⟨rerrHeader 0 (l.numDests / 2), ?_, hhalf⟩
  rw [RerrLocals.packet, generateRerrMessageBuff, if_neg hhalf_ne]
  rfl

/-- Where no valid route goes through the sender there is nothing to pass on. -/
theorem passedOn_eq_none (s ip : U32) (n : Node) (h : NoRouteThrough s ip n) (q : U32 × U32)
    (hq : slotOf q.1 = slotOf ip) : passedOn s n q = none := by
  have hsame : n.getRoutingEntry q.1 = n.getRoutingEntry ip := by
    rw [Node.getRoutingEntry_eq, hq, ← Node.getRoutingEntry_eq]
  unfold passedOn
  rw [hsame]
  cases he : n.getRoutingEntry ip with
  | none => rfl
  | some e => exact if_neg fun hboth => by cases (h e he).symm.trans hboth.1

/-- What a round of the loop that breaks a route leaves to be passed on. -/
theorem toPassOn_cons (s : U32) (n n' : Node) (p : U32 × U32) (rest : List (U32 × U32))
    (hsame : ∀ q, slotOf q.1 ≠ slotOf p.1 → passedOn s n' q = passedOn s n q)
    (hdone : ∀ q, slotOf q.1 = slotOf p.1 → passedOn s n' q = none) :
    toPassOn s n (p :: rest) = (passedOn s n p).toList ++ toPassOn s n' rest := by
  have hrest : ((firstPairs rest).filter fun q => slotOf q.1 ≠ slotOf p.1).filterMap
      (passedOn s n) = toPassOn s n' rest := by
    rw [List.filterMap_filter, toPassOn]
    refine congrArg (List.filterMap · (firstPairs rest)) (funext fun q => ?_)
    by_cases hq : slotOf q.1 = slotOf p.1
    · rw [hdone q hq]
      simp only [hq, ne_eq, not_true_eq_false, decide_false, Bool.false_eq_true, if_false]
    · rw [hsame q hq]
      simp only [hq, ne_eq, not_false_eq_true, decide_true, if_true]
  unfold toPassOn at hrest ⊢
  rw [firstPairs, List.filterMap_cons, hrest]
  cases passedOn s n p <;> rfl

/-- An operation that hands the library no packet leaves what has been sent. -/
theorem apply_sentPackets (n : Node) (o : Op) (hsilent : ¬ o.SendsPacket) :
    (o.apply n).sentPackets = n.sentPackets := by
  have hroutes : (o.calls n).filterMap ApiCall.packet = [] := by
    refine List.filterMap_eq_nil_iff.mpr (fun c hc => ?_)
    have hcall := calls_isRouteCall n o hsilent c hc
    cases c with
    | addUnicastRoutingEntry | deleteEntry => rfl
    | sendUnicast | sendBroadcast => exact absurd hcall id
  unfold Node.sentPackets
  rw [apply_log, List.filterMap_append, hroutes, List.nil_append]

/-- A round collects what is to be passed on of its pair. -/
theorem collected_step (s : U32) (l : RerrLocals) (n : Node) (ps : List (U32 × U32))
    (p : U32 × U32) (e : RoutingEntry) (he : n.getRoutingEntry p.1 = some e)
    (hthrough : e.goesThrough s = true) (h : Collected l ps) :
    Collected (l.collect e p.2) (ps ++ (passedOn s n p).toList) := by
  unfold passedOn
  rw [he]
  by_cases hlist : e.precursorList ≠ []
  · simp only [if_pos (And.intro hthrough hlist), Option.toList_some]
    exact collected_collect l ps e p.2 hlist h
  · simp only [if_neg (fun hboth : e.goesThrough s = true ∧ e.precursorList ≠ [] =>
      hlist hboth.2), Option.toList_none, List.append_nil]
    unfold RerrLocals.collect
    rw [if_neg hlist]
    exact h

/-- What the loop sends: the packet of all it has collected, if the count says there is
    any. -/
theorem rerrLoop_sends (env : Env) (s : U32) (pairs : List (U32 × U32)) (l : RerrLocals) (n : Node)
    (ps : List (U32 × U32)) (h : Collected l ps) :
    ∃ l', Collected l' (ps ++ toPassOn s n pairs) ∧
      ((rerrLoop env s pairs l).exec Op.apply n).1.sentPackets =
        (if l'.numDests = 0 then [] else [l'.packet]) ++ n.sentPackets := by
  induction pairs generalizing l n ps with
  | nil =>
      refine ⟨l, ?_, ?_⟩
      · rw [toPassOn, firstPairs, List.filterMap_nil, List.append_nil]
        exact h
      · unfold rerrLoop
        split
        · rfl
        · unfold RerrTarget.send
          split <;> rfl
  | cons p rest ih =>
      simp only [rerrLoop, Prog.exec]
      -- A pair that finds no route over the sender changes nothing.
      have hskip : NoRouteThrough s p.1 n →
          ∃ l', Collected l' (ps ++ toPassOn s n (p :: rest)) ∧
            ((rerrLoop env s rest l).exec Op.apply n).1.sentPackets =
              (if l'.numDests = 0 then [] else [l'.packet]) ++ n.sentPackets := by
        intro hroute
        have hnone := passedOn_eq_none s p.1 n hroute
        rw [toPassOn_cons s n n p rest (fun _ _ => rfl) hnone, hnone p rfl]
        exact ih l n ps h
      cases he : n.getRoutingEntry p.1 with
      | none => exact hskip fun e he' => by cases he.symm.trans he'
      | some e =>
          by_cases hthrough : e.goesThrough s = true
          · simp only [if_pos hthrough, Prog.exec, he]
            rw [toPassOn_cons s n ((Op.breakRoute env p.1 p.2).apply n) p rest
              (fun q hq => ?_) (fun q hq => ?_)]
            · rcases ih _ ((Op.breakRoute env p.1 p.2).apply n) _
                (collected_step s l n ps p e he hthrough h) with ⟨l', hl', hsent⟩
              refine ⟨l', ?_, ?_⟩
              · rw [← List.append_assoc]
                exact hl'
              · rw [hsent, apply_sentPackets n (.breakRoute env p.1 p.2) id]
            · rw [passedOn, passedOn, Node.getRoutingEntry_eq, breakRoute_slots, if_neg hq,
                ← Node.getRoutingEntry_eq]
            · refine passedOn_eq_none s p.1 _ (fun e' he' => ?_) q hq
              rw [Node.getRoutingEntry_eq, breakRoute_slots, if_pos rfl, ← Node.getRoutingEntry_eq,
                he, Option.map_some, Option.some.injEq] at he'
              rw [← he']
              exact breakRoute_goesThrough env s p.2 e
          · simp only [if_neg hthrough]
            refine hskip fun e' he' => ?_
            cases he.symm.trans he'
            exact Bool.eq_false_iff.mpr hthrough

/-! ### The handler -/

section Handler

variable (env : Env) (s : U32) (header : RerrHeader) (destPairs : Nat → U32) (n : Node)

theorem collected_nil (pairs : Nat → U32) (target : RerrTarget) :
    Collected { target := target, numDests := 0, pairs := pairs } [] where
  count := rfl
  pairs _ _ hj := absurd hj (Nat.not_lt_zero _)
  among _ hj := absurd hj (Nat.not_lt_zero _)

/-- What the handler sends is what the loop has collected. -/
theorem recvRerr_sends : ∃ l,
    Collected l (toPassOn s n (rerrPairs header.destCount destPairs)) ∧
      ((recvRerr env s header destPairs).exec Op.apply n).1.sentPackets =
        (if l.numDests = 0 then [] else [l.packet]) ++ n.sentPackets :=
  rerrLoop_sends env s (rerrPairs header.destCount destPairs) _ n []
    (collected_nil (wordAt (env.memory .rerrPairs)) _)

/-- With 128 pairs the index is where it began. -/
theorem collected_none_iff (l : RerrLocals) (ps : List (U32 × U32)) (h : Collected l ps) :
    l.numDests = 0 ↔ ps.length % 128 = 0 := by
  have hcount := h.count
  rw [← BitVec.toNat_inj, hcount]
  show 2 * ps.length % 256 = 0 ↔ _
  omega

/-- A RERR is acted on as it should be exactly if fewer than 128 routes with precursors
    go over its sender and are named in it. -/
theorem rerr_exact_iff :
    RerrExact env s (rerrPairs header.destCount destPairs) n
      ((recvRerr env s header destPairs).exec Op.apply n).1 ↔
    (toPassOn s n (rerrPairs header.destCount destPairs)).length < 128 := by
  rcases recvRerr_sends env s header destPairs n with ⟨l, hl, hsent⟩
  have hnone := collected_none_iff l _ hl
  constructor
  · intro hexact
    by_contra hmany
    have hsome : toPassOn s n (rerrPairs header.destCount destPairs) ≠ [] := by
      intro hempty
      rw [hempty] at hmany
      exact hmany (by decide)
    rcases hexact.sent hsome with ⟨header', hpacket, hcount⟩
    rw [hsent] at hpacket
    by_cases hzero : l.numDests = 0
    · -- Nothing is sent.
      rw [if_pos hzero] at hpacket
      exact absurd hpacket (List.ne_cons_self)
    · -- The count in the header is below 128.
      rw [if_neg hzero] at hpacket
      rcases collected_packet l _ hl hzero with ⟨header'', hpacket', hcount'⟩
      have hsame := (List.cons.inj hpacket).1
      rw [hpacket', Packet.rerr.injEq] at hsame
      rw [hsame.1] at hcount'
      omega
  · intro hfew
    refine ⟨rerrLoop_table env s _ _ n, fun hempty => ?_, fun hsome => ?_⟩
    · rw [hsent, if_pos (hnone.mpr (by rw [hempty]; rfl))]
      rfl
    · have hlen := List.length_pos_iff.mpr hsome
      have hcounted : l.numDests ≠ 0 := fun hzero => by
        have hmod := hnone.mp hzero
        omega
      rcases collected_packet l _ hl hcounted with ⟨header', hpacket, hcount⟩
      rw [Nat.mod_eq_of_lt hfew] at hcount
      refine ⟨header', ?_, hcount⟩
      rw [hsent, if_neg hcounted, hpacket, hcount, collected_words l _ hl hfew.le]
      rfl

end Handler

theorem slotOf_topOctet : ∀ i : Fin 256, slotOf (BitVec.ofNat 32 i.val <<< 24) = i := by
  decide +kernel

/-- A node with routes to 1.0.0.0 up to 128.0.0.0 over 200.0.0.0, all of them used by
    201.0.0.0. -/
def manyRoutes : Node :=
  { Node.boot 0xD2000000 0xFFFFFFFF (fun _ => 0) with
    routes :=
      { slots := fun i =>
          if 1 ≤ i.val ∧ i.val ≤ 128 then
            some { freshEntry .clear (BitVec.ofNat 32 i.val <<< 24) 1 .seqValid 0xC8000000 2 0 with
              status := .routeValid, precursorList := [0xC9000000] }
          else none
        keyed := by
          intro i e h
          simp only [Option.ite_none_right_eq_some, Option.some.injEq] at h
          rw [← h.2]
          exact slotOf_topOctet i } }

/-- The words of an error about 1.0.0.0, 2.0.0.0 and so on, all with number zero. -/
def manyPairs : Nat → U32 := fun i => if i % 2 = 0 then BitVec.ofNat 32 (i / 2 + 1) <<< 24 else 0

/-- All 128 routes are lost and nobody is told. -/
theorem not_rerr_exact_manyRoutes :
    ¬ RerrExact .clear 0xC8000000 (rerrPairs 128 manyPairs) manyRoutes
      ((recvRerr .clear 0xC8000000 (rerrHeader 0 128) manyPairs).exec Op.apply manyRoutes).1 := by
  intro hexact
  rcases recvRerr_sends .clear 0xC8000000 (rerrHeader 0 128) manyPairs manyRoutes with
    ⟨l, hl, hsent⟩
  have hlen : (toPassOn 0xC8000000 manyRoutes (rerrPairs 128 manyPairs)).length = 128 := by
    decide +kernel
  have hsome : toPassOn 0xC8000000 manyRoutes (rerrPairs 128 manyPairs) ≠ [] :=
    List.ne_nil_of_length_pos (by rw [hlen]; decide)
  rcases hexact.sent hsome with ⟨header, hpacket, -⟩
  rw [if_pos ((collected_none_iff l _ hl).mpr (by rw [show (rerrHeader 0 128).destCount = 128
    from rfl, hlen]))] at hsent
  exact absurd (hsent.symm.trans hpacket) (List.ne_cons_self)

end OpenManet
