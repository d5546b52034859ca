import OpenManet.Theory.ErrorContents
import OpenManet.Theory.LinkBreak

/-!
# The Array of a Link Break

The error of a link break is assembled in an array with room for one pair more than
the next hop lists destinations. The first pair is the next hop's. Each listed
destination with precursors raises the count and then writes its pair at twice the
count, so the first of them goes to words four and five: words two and three are never
written, and the last pair lies behind those the count says there are. Only where no
destination is taken in is the array as it should be.

What the loop does to the table and what it does to the array hardly depend on each
other. A destination is taken in if its entry has precursors, and no round of the loop
changes those; so which destinations are taken in can be read off the table before.

## Main definitions

* `ArrayState`, `ArrayState.collect`: The locals with the indices written so far.
* `fillArray`, `breakArray`: The array when the packet is built.
* `ArrayFilled`: The array is written within its bounds and up to the count.

## Theorems

* `linkBreak_sends`: The packet sent is built from this array.
* `breakArray_count`, `breakArray_low`: What has been counted, and what is not written.
* `array_filled_iff`: The array is filled exactly if nobody is taken in.
-/

namespace OpenManet

/-- The indices a round writes to: two, if the destination is taken in. -/
def BreakLocals.writes (l : BreakLocals) (e : RoutingEntry) : List Nat :=
  if e.precursorList ≠ [] then
    [2 * (l.numDests + 1).toNat, 2 * (l.numDests + 1).toNat + 1]
  else []

/-- The locals of the link break and the indices of the array written so far. -/
structure ArrayState where
  locals : BreakLocals
  written : List Nat

def ArrayState.collect (a : ArrayState) (e : RoutingEntry) : ArrayState :=
  { locals := a.locals.collect e, written := a.written ++ a.locals.writes e }

/-- The array before the loop: the next hop's pair has been written. -/
def arrayStart (env : Env) (destHop : RoutingEntry) : ArrayState :=
  { locals := breakStart env destHop, written := [0, 1] }

/-- The array after the loop, and the node. -/
def fillArray (env : Env) : List U32 → ArrayState → Node → ArrayState × Node
  | [], a, n => (a, n)
  | unreachable :: rest, a, n =>
    match n.getRoutingEntry unreachable with
    | none => fillArray env rest a n
    | some e => fillArray env rest (a.collect e) ((Op.linkBreak env unreachable).apply n)

/-- The array of a link break at the next hop of a destination, when the packet is
    built. -/
def breakArray (env : Env) (n : Node) (dest : U32) (hop : RoutingEntry) : ArrayState :=
  (fillArray env hop.nextHopFor (arrayStart env hop)
    ((Op.write (n.nextHopOf dest) (.timer env (toU32 deletePeriod))).apply n)).1

/-- Every write is inside an array for so many destinations and the next hop; the words
    up to the count have been written when they are copied; and the buffer they are
    copied to is there and as long as what is sent of it. -/
structure ArrayFilled (env : Env) (size : Nat) (a : ArrayState) : Prop where
  bounds : ∀ i ∈ a.written, i < 2 * (size + 1)
  filled : ∀ i, i < 2 * a.locals.numDests.toNat → i ∈ a.written
  buffer : ∃ header words,
    generateRerrMessageBuff 0 (a.locals.numDests.setWidth 8) a.locals.pairs =
      some (header, words) ∧ 4 + 4 * words.length = (a.locals.packet env).length

/-- No address listed under the next hop finds an entry with precursors. -/
def NobodyUses (n : Node) (hop : RoutingEntry) : Prop :=
  ∀ d ∈ hop.nextHopFor, ∀ e, n.getRoutingEntry d = some e → e.precursorList = []

/-! ### The loop -/

/-- A round writes to these indices, to nothing else, and the pair of the destination. -/
theorem collect_writes (l : BreakLocals) (e : RoutingEntry) :
    (∀ i, i ∉ l.writes e → (l.collect e).pairs i = l.pairs i) ∧
      (e.precursorList ≠ [] →
        (l.writes e).map (l.collect e).pairs = [e.destIp, e.destSeq + 1]) := by
  unfold BreakLocals.writes BreakLocals.collect
  by_cases he : e.precursorList ≠ []
  · rw [if_pos he, if_pos he]
    refine ⟨fun i hi => ?_, fun _ => ?_⟩
    · rw [List.mem_cons, List.mem_singleton, not_or] at hi
      exact writePair_ne _ _ _ _ _ hi.1 hi.2
    · have hself := writePair_self l.pairs (2 * (l.numDests + 1).toNat) e.destIp (e.destSeq + 1)
      simp only [List.map_cons, List.map_nil, hself.1, hself.2]
  · rw [if_neg he, if_neg he]
    exact ⟨fun _ _ => rfl, fun h => absurd h he⟩

theorem fillArray_sentPackets (env : Env) (list : List U32) (a : ArrayState) (n : Node) :
    (fillArray env list a n).2.sentPackets = n.sentPackets := by
  induction list generalizing a n with
  | nil => rfl
  | cons ip rest ih =>
      unfold fillArray
      split
      · exact ih a n
      · rw [ih, apply_sentPackets n (.linkBreak env ip) id]

/-- The loop ends with the send of the packet built from the array. -/
theorem breakLoop_exec (env : Env) (dest : U32) (list : List U32) (a : ArrayState) (n : Node) :
    ((breakLoop env dest list a.locals).exec Op.apply n).1 =
      ((fillArray env list a n).1.locals.target.send
        ((fillArray env list a n).1.locals.packet env)).apply (fillArray env list a n).2 := by
  induction list generalizing a n with
  | nil => rfl
  | cons ip rest ih =>
      simp only [breakLoop, Prog.exec, fillArray]
      cases he : n.getRoutingEntry ip with
      | none =>
          rw [Option.isSome_none, if_neg Bool.false_ne_true]
          exact ih a n
      | some e =>
          rw [Option.isSome_some, if_pos rfl]
          simp only [Prog.exec, he]
          exact ih (a.collect e) _

/-- The packet sent upon a link break. -/
theorem linkBreak_sends (n : Node) (env : Env) (src dest : U32) (hop : RoutingEntry)
    (h : TakesLinkBreak n dest hop) :
    (step n ⟨env, .forwarded src dest⟩).sentPackets =
      (breakArray env n dest hop).locals.packet env :: n.sentPackets := by
  rcases h with ⟨destination, hdest, hvalid, hhop, hinvalid⟩
  have hnext : n.nextHopOf dest = destination.nextHop := by
    unfold Node.nextHopOf
    rw [hdest]
  rw [step_linkBreak_exec n env src dest destination hop hdest hvalid hhop hinvalid]
  rw [show breakStart env hop = (arrayStart env hop).locals from rfl, breakLoop_exec]
  unfold breakArray
  rw [hnext]
  -- Neither the timer nor the loop sends anything, so one send is all there is.
  have hsent := fillArray_sentPackets env hop.nextHopFor (arrayStart env hop)
    ((Op.write destination.nextHop (.timer env (toU32 deletePeriod))).apply n)
  rw [show ((Op.write destination.nextHop (.timer env (toU32 deletePeriod))).apply n).sentPackets =
    n.sentPackets from rfl] at hsent
  rw [← hsent]
  unfold RerrTarget.send
  split <;> rfl

/-! ### Who is taken in -/

/-- The listed addresses that find an entry with precursors. -/
def takenIn (n : Node) (list : List U32) : List U32 :=
  list.filter fun d => (n.getRoutingEntry d).any fun e => e.precursorList ≠ []

/-- An operation that leaves the lists of precursors leaves who is taken in. -/
theorem takenIn_apply (n : Node) (list : List U32) (o : Op) (ip : U32)
    (f : RoutingEntry → RoutingEntry) (heff : o.effect n = .update ip f)
    (hkeeps : ∀ e, (f e).precursorList = e.precursorList) :
    takenIn (o.apply n) list = takenIn n list := by
  unfold takenIn
  refine congrArg (List.filter · list) (funext fun d => ?_)
  rw [Node.getRoutingEntry_eq, apply_slots, heff, ← Node.getRoutingEntry_eq]
  simp only [Effect.slot]
  split
  · rw [Option.any_map]
    simp only [hkeeps]
  · rfl

theorem linkBreak_takenIn (env : Env) (ip : U32) (n : Node) (list : List U32) :
    takenIn ((Op.linkBreak env ip).apply n) list = takenIn n list :=
  takenIn_apply n list (.linkBreak env ip) ip _ rfl (fun _ => rfl)

theorem timer_takenIn (ip : U32) (env : Env) (ms : U32) (n : Node) (list : List U32) :
    takenIn ((Op.write ip (.timer env ms)).apply n) list = takenIn n list :=
  takenIn_apply n list (.write ip (.timer env ms)) ip _ rfl (fun _ => rfl)

theorem takenIn_cons (n : Node) (ip : U32) (rest : List U32) :
    takenIn n (ip :: rest) =
      if (n.getRoutingEntry ip).any (fun e => e.precursorList ≠ []) then ip :: takenIn n rest
      else takenIn n rest := List.filter_cons

/-- The count goes up by one for each destination taken in. -/
theorem fillArray_count (env : Env) (list : List U32) (a : ArrayState) (n : Node) :
    (fillArray env list a n).1.locals.numDests =
      a.locals.numDests + BitVec.ofNat 32 (takenIn n list).length := by
  induction list generalizing a n with
  | nil => exact (BitVec.add_zero _).symm
  | cons ip rest ih =>
      rw [takenIn_cons]
      unfold fillArray
      cases n.getRoutingEntry ip with
      | none => exact ih a n
      | some e =>
          -- The break keeps the precursors, so the rest is taken in as before it.
          simp only []
          rw [ih, linkBreak_takenIn, Option.any_some]
          unfold ArrayState.collect BreakLocals.collect
          by_cases he : e.precursorList ≠ []
          · rw [if_pos he, if_pos (decide_eq_true he), List.length_cons, Nat.add_comm,
              BitVec.ofNat_add]
            exact BitVec.add_assoc _ _ _
          · rw [if_neg he, if_neg (by rw [decide_eq_false he]; exact Bool.false_ne_true)]

/-- A destination nobody uses is not taken in. -/
theorem collect_of_unused (a : ArrayState) (e : RoutingEntry) (h : ¬ e.precursorList ≠ []) :
    a.collect e = a := by
  unfold ArrayState.collect BreakLocals.collect BreakLocals.writes
  rw [if_neg h, if_neg h, List.append_nil]

/-- Where nobody is taken in the array stays as it is. -/
theorem fillArray_of_none (env : Env) (list : List U32) (a : ArrayState) (n : Node)
    (h : takenIn n list = []) : (fillArray env list a n).1 = a := by
  induction list generalizing a n with
  | nil => rfl
  | cons ip rest ih =>
      rw [takenIn_cons] at h
      unfold fillArray
      cases he : n.getRoutingEntry ip with
      | none =>
          rw [he] at h
          exact ih a n h
      | some e =>
          rw [he, Option.any_some] at h
          simp only []
          by_cases hlist : e.precursorList ≠ []
          · -- This one would be taken in.
            rw [if_pos (decide_eq_true hlist)] at h
            exact absurd h (List.cons_ne_nil _ _)
          · rw [if_neg (by rw [decide_eq_false hlist]; exact Bool.false_ne_true)] at h
            rw [collect_of_unused a e hlist]
            exact ih a _ ((linkBreak_takenIn env ip n rest).trans h)

/-- A count that is not zero and goes up before it is used as an index never comes to
    the first two pairs, short of a full round of the count. -/
theorem fillArray_low (env : Env) (list : List U32) (a : ArrayState) (n : Node)
    (hpos : 1 ≤ a.locals.numDests.toNat)
    (hfits : a.locals.numDests.toNat + (takenIn n list).length < 2 ^ 32) (i : Nat) (hi : i < 4) :
    (fillArray env list a n).1.locals.pairs i = a.locals.pairs i ∧
      (i ∈ (fillArray env list a n).1.written ↔ i ∈ a.written) := by
  induction list generalizing a n with
  | nil => exact ⟨rfl, Iff.rfl⟩
  | cons ip rest ih =>
      rw [takenIn_cons] at hfits
      unfold fillArray
      cases he : n.getRoutingEntry ip with
      | none =>
          rw [he] at hfits
          exact ih a n hpos hfits
      | some e =>
          rw [he, Option.any_some] at hfits
          simp only []
          have hnext : (a.locals.numDests + 1).toNat = (a.locals.numDests.toNat + 1) % 2 ^ 32 := by
            rw [BitVec.toNat_add]
            rfl
          by_cases hlist : e.precursorList ≠ []
          · -- The round writes behind the second pair.
            rw [if_pos (decide_eq_true hlist), List.length_cons] at hfits
            have hlater := ih (a.collect e) ((Op.linkBreak env ip).apply n)
              (by
                simp only [ArrayState.collect, BreakLocals.collect, if_pos hlist]
                omega)
              (by
                rw [linkBreak_takenIn]
                simp only [ArrayState.collect, BreakLocals.collect, if_pos hlist]
                omega)
            have hwrites : i ∉ a.locals.writes e := by
              unfold BreakLocals.writes
              rw [if_pos hlist, List.mem_cons, List.mem_singleton, not_or]
              exact ⟨by omega, by omega⟩
            refine ⟨hlater.1.trans ((collect_writes a.locals e).1 i hwrites), hlater.2.trans ?_⟩
            rw [ArrayState.collect, List.mem_append]
            exact or_iff_left hwrites
          · rw [if_neg (by rw [decide_eq_false hlist]; exact Bool.false_ne_true)] at hfits
            rw [collect_of_unused a e hlist]
            exact ih a _ hpos ((linkBreak_takenIn env ip n rest).symm ▸ hfits)

/-! ### The array -/

theorem breakArray_count (env : Env) (n : Node) (dest : U32) (hop : RoutingEntry) :
    (breakArray env n dest hop).locals.numDests.toNat =
      (1 + (takenIn n hop.nextHopFor).length) % 2 ^ 32 := by
  unfold breakArray
  rw [fillArray_count, timer_takenIn, BitVec.toNat_add, BitVec.toNat_ofNat]
  show (1 + _ % 2 ^ 32) % 2 ^ 32 = _
  omega

/-- The first two pairs are as they were before the loop. -/
theorem breakArray_low (env : Env) (n : Node) (dest : U32) (hop : RoutingEntry)
    (hfits : 1 + (takenIn n hop.nextHopFor).length < 2 ^ 32) (i : Nat) (hi : i < 4) :
    (breakArray env n dest hop).locals.pairs i = (breakStart env hop).pairs i ∧
      (i ∈ (breakArray env n dest hop).written ↔ i ∈ [0, 1]) :=
  fillArray_low env hop.nextHopFor (arrayStart env hop) _ (Nat.le_refl 1)
    ((timer_takenIn (n.nextHopOf dest) env _ n hop.nextHopFor).symm ▸ hfits) i hi

theorem nobodyUses_iff (n : Node) (hop : RoutingEntry) :
    NobodyUses n hop ↔ takenIn n hop.nextHopFor = [] := by
  unfold NobodyUses takenIn
  rw [List.filter_eq_nil_iff]
  refine forall₂_congr fun d _ => ?_
  cases n.getRoutingEntry d with
  | none => simp only [reduceCtorEq, false_implies, implies_true, Option.any_none,
      Bool.false_eq_true, not_false_eq_true]
  | some e => simp only [Option.some.injEq, forall_eq', Option.any_some, ne_eq, decide_eq_true_eq,
      not_not]

/-- A link break fills its array as it should if nobody uses the destinations listed
    under the next hop, and only then, for a list its size can be counted of. -/
theorem array_filled_iff (n : Node) (env : Env) (src dest : U32) (hop : RoutingEntry)
    (h : TakesLinkBreak n dest hop) :
    (step n ⟨env, .forwarded src dest⟩).sentPackets =
        (breakArray env n dest hop).locals.packet env :: n.sentPackets ∧
      (NobodyUses n hop →
        ArrayFilled env hop.nextHopFor.length (breakArray env n dest hop)) ∧
      (hop.nextHopFor.length < 2 ^ 32 →
        ArrayFilled env hop.nextHopFor.length (breakArray env n dest hop) → NobodyUses n hop) := by
  refine ⟨linkBreak_sends n env src dest hop h, fun hnobody => ?_, fun hlen hfilled => ?_⟩
  · have hnone := (nobodyUses_iff n hop).mp hnobody
    have hstart : breakArray env n dest hop = arrayStart env hop :=
      fillArray_of_none env _ _ _ ((timer_takenIn _ env _ n _).trans hnone)
    rw [hstart]
    refine ⟨fun i hi => ?_, fun i hi => ?_, _, _, rfl, ?_⟩
    · have hsmall : i = 0 ∨ i = 1 := by
        simpa only [arrayStart, List.mem_cons, List.not_mem_nil, or_false] using hi
      omega
    · have hsmall : i < 2 := hi
      rcases Nat.lt_succ_iff_lt_or_eq.mp hsmall with hzero | hone
      · rw [Nat.lt_one_iff.mp hzero]
        exact List.mem_cons_self
      · rw [hone]
        exact List.mem_cons_of_mem _ List.mem_cons_self
    · rfl
  · rw [nobodyUses_iff]
    by_contra hsome
    have hle : (takenIn n hop.nextHopFor).length ≤ hop.nextHopFor.length :=
      List.length_filter_le _ _
    have hpos : 0 < (takenIn n hop.nextHopFor).length := List.length_pos_iff.mpr hsome
    have hcount := breakArray_count env n dest hop
    by_cases hround : 1 + (takenIn n hop.nextHopFor).length = 2 ^ 32
    · -- The count is back at zero and the generator returns NULL.
      rcases hfilled.buffer with ⟨header, words, hbuffer, -⟩
      have hzero : (breakArray env n dest hop).locals.numDests = 0 := by
        apply BitVec.eq_of_toNat_eq
        rw [hcount, hround]
        rfl
      rw [hzero] at hbuffer
      cases hbuffer
    · have hlow := (breakArray_low env n dest hop (by omega) 2 (by decide)).2
      rw [Nat.mod_eq_of_lt (by omega)] at hcount
      exact absurd (hlow.mp (hfilled.filled 2 (by omega))) (by decide)

theorem array_filled_iff_lostNeighbour :
    ∃ hop, neighbourAfter lostNeighbour = some hop ∧
      ArrayFilled .clear hop.nextHopFor.length
        (breakArray .clear (run step (Node.boot 0x01000000 0xFF000000 fun _ => 0) lostNeighbour)
          0x03000000 hop) :=
  ⟨_, rfl, (array_filled_iff (run step (Node.boot 0x01000000 0xFF000000 fun _ => 0) lostNeighbour)
    .clear 0x06000000 0x03000000 _ ⟨_, rfl, rfl, rfl, rfl⟩).2.1 (by
      intro d hd e he
      rw [List.mem_singleton.mp hd] at he
      cases he
      rfl)⟩

/-- A reply is passed on to 4.0.0.0, and the neighbour it came from goes silent. -/
def usedRouteLost : List Input := requestAnswered ++ [⟨.clear, .expire 0x02000000⟩]

/-- With the one destination in use taken in, words two and three are not written. -/
theorem not_array_filled_usedRouteLost :
    ∃ hop, neighbourAfter usedRouteLost = some hop ∧
      TakesLinkBreak (run step (Node.boot 0x01000000 0xFF000000 fun _ => 0) usedRouteLost)
        0x03000000 hop ∧
      ¬ ArrayFilled .clear hop.nextHopFor.length
        (breakArray .clear (run step (Node.boot 0x01000000 0xFF000000 fun _ => 0) usedRouteLost)
          0x03000000 hop) := by
  refine ⟨_, rfl, ⟨_, rfl, rfl, rfl, rfl⟩, fun hfilled => ?_⟩
  have hwritten := hfilled.filled 2 (by decide)
  exact absurd hwritten (by decide)

end OpenManet
