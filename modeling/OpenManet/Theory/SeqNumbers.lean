import OpenManet.Library.SerialNumber
import OpenManet.Theory.Guards
import Mathlib.Data.Fintype.Card

/-!
# Stored Sequence Numbers

How the sequence number of an entry moves in one step of a node. Two of the
three messages can raise it to the number they carry; a link break counts it up
once for each listed address in the entry's slot, which is far less than half
the range; a RERR copies its own number whatever it is, as the comment above the
statement says it has to. A request the unsigned comparison takes for newer is
the remaining case, and `SeqMoves` says nothing about it.

## Main definitions

* `NotOlder`: The order of `seqCompare`.
* `Event.MayWrite`: The number a message writes.
* `Broken`: What the loop of a link break leaves of an entry.
* `SeqMoves`: How a number moves in a step.

## Theorems

* `apply_seq`: One operation.
* `breakLoop_breaks`: The loop of a link break.
* `nextHopFor_nodup`: No address is listed twice.
* `step_seq_moves`: In every run, how a step moves a number.
* `goesBack_rerr_rreq`: Two steps that take one back.
-/

namespace OpenManet

/-- The number is as new as the stored one, or newer. -/
def NotOlder (seq stored : U32) : Prop := seqCompare seq stored ≥ 0

instance (seq stored : U32) : Decidable (NotOlder seq stored) :=
  inferInstanceAs (Decidable (_ ≥ _))

theorem seqCompare_eq (x y : U32) : seqCompare x y = signedDistance x y := rfl

theorem notOlder_refl (seq : U32) : NotOlder seq seq :=
  le_of_eq (signedDistance_self seq).symm

/-- A message writes this number to an entry of the slot with the stored one. -/
def Event.MayWrite (event : Event) (i : Fin 256) (stored seq : U32) : Prop :=
  match event with
  | .control _ (.rreq m) => i = slotOf m.srcIp ∧ seq = m.srcSeq ∧ m.srcSeq > stored
  | .control _ (.rrep m) => i = slotOf m.destIp ∧ seq = m.destSeq ∧ NotOlder m.destSeq stored
  | _ => False

/-- Across a part of a handler the entry of the slot stays, its number stays
    valid, and is the old one or one the message writes. -/
def SeqKept (event : Event) (i : Fin 256) (n n' : Node) : Prop :=
  ∀ e, n.routes.slots i = some e → e.seqValid = .seqValid →
    ∃ e', n'.routes.slots i = some e' ∧ e'.seqValid = .seqValid ∧
      (e'.destSeq = e.destSeq ∨ event.MayWrite i e.destSeq e'.destSeq)

theorem seqKept_refl (event : Event) (i : Fin 256) (n : Node) : SeqKept event i n n :=
  fun e he hvalid => ⟨e, he, hvalid, Or.inl rfl⟩

/-- A message writes one number, so two writes are as good as the first. -/
theorem mayWrite_trans (event : Event) (i : Fin 256) (a b c : U32) (hab : event.MayWrite i a b)
    (hbc : event.MayWrite i b c) : event.MayWrite i a c := by
  unfold Event.MayWrite at hab hbc ⊢
  cases event with
  | control s message =>
      cases message with
      | rreq m => exact ⟨hab.1, hbc.2.1, hab.2.2⟩
      | rrep m => exact ⟨hab.1, hbc.2.1, hab.2.2⟩
      | rerr m destPairs => exact hab
  | data | outgoing | forwarded | search | wait | expire | rreqIdExpire | hello => exact hab

theorem seqKept_trans (event : Event) (i : Fin 256) (a b c : Node) (hab : SeqKept event i a b)
    (hbc : SeqKept event i b c) : SeqKept event i a c := by
  intro e he hvalid
  rcases hab e he hvalid with ⟨e', he', hvalid', hseq⟩
  rcases hbc e' he' hvalid' with ⟨e'', he'', hvalid'', hseq'⟩
  refine ⟨e'', he'', hvalid'', ?_⟩
  rcases hseq' with hsame' | hwrite'
  · rw [hsame']
    exact hseq
  · rcases hseq with hsame | hwrite
    · rw [hsame] at hwrite'
      exact Or.inr hwrite'
    · exact Or.inr (mayWrite_trans event i _ _ _ hwrite hwrite')

/-! ### One operation -/

/-- A write that leaves the number as it is or writes the message's. -/
theorem seqKept_of_update (event : Event) (i : Fin 256) (n : Node) (o : Op) (ip : U32)
    (f : RoutingEntry → RoutingEntry) (heff : o.effect n = .update ip f)
    (hf : ∀ e, n.getRoutingEntry ip = some e → e.seqValid = .seqValid →
      (f e).seqValid = .seqValid ∧
        ((f e).destSeq = e.destSeq ∨ event.MayWrite (slotOf ip) e.destSeq (f e).destSeq)) :
    SeqKept event i n (o.apply n) := by
  intro e he hvalid
  rw [apply_slots, heff, he]
  simp only [Effect.slot, Option.map_some]
  by_cases hi : i = slotOf ip
  · subst hi
    rw [if_pos rfl]
    rcases hf e he hvalid with ⟨hvalid', hseq⟩
    exact ⟨f e, rfl, hvalid', hseq⟩
  · rw [if_neg hi]
    exact ⟨e, rfl, hvalid, Or.inl rfl⟩

/-- The slot keeps its entry. -/
theorem seqKept_of_same (event : Event) (i : Fin 256) (n : Node) (o : Op)
    (h : ∀ e, n.routes.slots i = some e → (o.effect n).slot i (some e) = some e) :
    SeqKept event i n (o.apply n) := by
  intro e he hvalid
  rw [apply_slots, he, h e he]
  exact ⟨e, rfl, hvalid, Or.inl rfl⟩

theorem reverseRoute_seq (env : Env) (s : U32) (m : RreqHeader) (new : Bool) (e : RoutingEntry)
    (hvalid : e.seqValid = .seqValid) (hnew : new = true → e.destSeq = m.srcSeq) :
    (e.reverseRoute env s m new).seqValid = .seqValid ∧
      ((e.reverseRoute env s m new).destSeq = e.destSeq ∨
        ((e.reverseRoute env s m new).destSeq = m.srcSeq ∧ m.srcSeq > e.destSeq)) := by
  by_cases hm : new = true ∨ fresherReverse m e = true
  · rcases reverseRoute_accepted env s new e m hm with ⟨t, ht⟩
    rw [ht]
    refine ⟨rfl, ?_⟩
    -- A fresh entry has the number of the request already; another one took it as newer.
    rcases hm with hn | hfresh
    · exact Or.inl (hnew hn).symm
    · simp only [fresherReverse, hvalid, Bool.or_eq_true, Bool.and_eq_true, decide_eq_true_eq,
        reduceCtorEq, or_false] at hfresh
      rcases hfresh with hgt | ⟨heq, -⟩
      · exact Or.inr ⟨rfl, hgt⟩
      · exact Or.inl heq
  · rcases reverseRoute_refused env s new e m hm with ⟨t, ht⟩
    rw [ht]
    exact ⟨hvalid, Or.inl rfl⟩

theorem forwardRoute_seq (env : Env) (s : U32) (m : RrepHeader) (new : Bool) (e : RoutingEntry)
    (hvalid : e.seqValid = .seqValid) (hnew : new = true → e.destSeq = m.destSeq) :
    (e.forwardRoute env s m new).seqValid = .seqValid ∧
      ((e.forwardRoute env s m new).destSeq = e.destSeq ∨
        ((e.forwardRoute env s m new).destSeq = m.destSeq ∧ NotOlder m.destSeq e.destSeq)) := by
  by_cases hm : new = true ∨ fresherForward m e = true
  · rcases forwardRoute_accepted env s new e m hm with ⟨t, ht⟩
    rw [ht]
    refine ⟨rfl, ?_⟩
    rcases hm with hn | hfresh
    · exact Or.inl (hnew hn).symm
    · simp only [fresherForward, hvalid, Bool.or_eq_true, Bool.and_eq_true, decide_eq_true_eq,
        reduceCtorEq, false_or] at hfresh
      -- Accepted as not older, or for the same number with a better route.
      rcases hfresh with (hcmp | ⟨heq, -⟩) | ⟨heq, -⟩
      · exact Or.inr ⟨rfl, hcmp⟩
      · exact Or.inl heq
      · exact Or.inl heq
  · rcases forwardRoute_refused env s new e m hm with ⟨t, ht⟩
    rw [ht]
    exact ⟨hvalid, Or.inl rfl⟩

theorem hello_seq (env : Env) (m : RrepHeader) (new : Bool) (e : RoutingEntry)
    (hvalid : e.seqValid = .seqValid) (hnew : new = true → e.destSeq = m.destSeq) :
    (e.hello env m new).seqValid = .seqValid ∧
      ((e.hello env m new).destSeq = e.destSeq ∨
        ((e.hello env m new).destSeq = m.destSeq ∧ NotOlder m.destSeq e.destSeq)) := by
  by_cases hm : takesHello m new e
  · rcases hello_accepted env new e m hm with ⟨t, ht⟩
    rw [ht]
    refine ⟨rfl, ?_⟩
    rcases hm with hn | hseq | hcmp
    · exact Or.inl (hnew hn).symm
    · exact absurd (hvalid.symm.trans hseq) nofun
    · exact Or.inr ⟨rfl, hcmp⟩
  · rw [hello_refused env new e m hm]
    exact ⟨hvalid, Or.inl rfl⟩

/-- One operation of a handler other than those of RERRs, forwarded packets and
    expirations. -/
theorem apply_seq (event : Event) (hrerr : ∀ s h p, event ≠ .control s (.rerr h p))
    (hforwarded : ∀ s d, event ≠ .forwarded s d) (hexpire : ∀ ip, event ≠ .expire ip)
    (i : Fin 256) (o : Op) (n : Node) (hguard : o.Guard event n) :
    SeqKept event i n (o.apply n) := by
  cases o with
  | create env ip s v h c t =>
      refine seqKept_of_same event i n _ (fun e he => ?_)
      simp only [Op.effect, Effect.slot, Option.getD_some, ite_self]
  | previousHop env s l new =>
      refine seqKept_of_update event i n _ _ _ rfl (fun e _ hvalid => ?_)
      rcases previousHop_eq env new e l with ⟨t, ht⟩
      rw [ht]
      exact ⟨hvalid, Or.inl rfl⟩
  -- The three that write a number do so from the message, and only a newer one.
  | reverseRoute env s m new =>
      refine seqKept_of_update event i n _ _ _ rfl (fun e he hvalid => ?_)
      rcases hguard with ⟨⟨m₀, rfl, rfl⟩, hnew⟩
      have hseq := reverseRoute_seq env s (incrementHopRreq m₀) new e hvalid (fun hn => by
        rw [Node.getRoutingEntry_eq, hnew hn, Option.some.injEq] at he
        rw [← he]
        rfl)
      exact ⟨hseq.1, hseq.2.imp id (fun hw => ⟨rfl, hw.1, hw.2⟩)⟩
  | hello env m new =>
      refine seqKept_of_update event i n _ _ _ rfl (fun e he hvalid => ?_)
      rcases hguard with ⟨s, ⟨m₀, rfl, rfl⟩, hnew⟩
      have hseq := hello_seq env (incrementHopRrep m₀) new e hvalid (fun hn => by
        rw [Node.getRoutingEntry_eq, hnew hn, Option.some.injEq] at he
        rw [← he]
        rfl)
      exact ⟨hseq.1, hseq.2.imp id (fun hw => ⟨rfl, hw.1, hw.2⟩)⟩
  | forwardRoute env s m new =>
      refine seqKept_of_update event i n _ _ _ rfl (fun e he hvalid => ?_)
      rcases hguard with ⟨⟨m₀, rfl, rfl⟩, hnew⟩
      have hseq := forwardRoute_seq env s (incrementHopRrep m₀) new e hvalid (fun hn => by
        rw [Node.getRoutingEntry_eq, hnew hn, Option.some.injEq] at he
        rw [← he]
        rfl)
      exact ⟨hseq.1, hseq.2.imp id (fun hw => ⟨rfl, hw.1, hw.2⟩)⟩
  | activate ip =>
      refine seqKept_of_update event i n _ _ _ rfl (fun e _ hvalid => ?_)
      rw [activate_eq]
      exact ⟨hvalid, Or.inl rfl⟩
  | write ip w =>
      refine seqKept_of_update event i n _ _ _ rfl (fun e _ hvalid => ?_)
      cases w <;> exact ⟨hvalid, Or.inl rfl⟩
  | searchFound | outgoingBreak | expireRoute | startSearch | searchFailed =>
      exact seqKept_of_update event i n _ _ _ rfl (fun e _ hvalid => ⟨hvalid, Or.inl rfl⟩)
  | breakRoute env ip s =>
      rcases hguard with ⟨s, h, p, -, hevent, -⟩
      exact absurd hevent (hrerr s h p)
  | linkBreak env ip =>
      rcases hguard with ⟨s, d, hevent⟩
      exact absurd hevent (hforwarded s d)
  | removeEntry ip => exact absurd hguard.1 (hexpire ip)
  | beginWait | moveWaiter | moveHello | incrementSequenceNum | writeSequenceNum | sendRreq
  | sendUnicast | sendBroadcast => exact seqKept_of_same event i n _ (fun _ _ => rfl)

/-- A handler other than those of RERRs, forwarded packets and expirations. -/
theorem exec_seq (event : Event) (hrerr : ∀ s h p, event ≠ .control s (.rerr h p))
    (hforwarded : ∀ s d, event ≠ .forwarded s d) (hexpire : ∀ ip, event ≠ .expire ip)
    (i : Fin 256) (h : Handler) (n : Node) (hguard : h.Guarded event n) :
    SeqKept event i n (h.exec Op.apply n).1 :=
  Prog.exec_relation Op.apply (Op.Guard event) (SeqKept event i) (seqKept_refl event i)
    (fun a b c => seqKept_trans event i a b c)
    (fun o n hg => apply_seq event hrerr hforwarded hexpire i o n hg) h n hguard

/-- A part of a handler that writes no number. -/
theorem exec_seq_same (i : Fin 256) (h : Handler) (n : Node) (hguard : h.Guarded .hello n) :
    SeqKept .hello i n (h.exec Op.apply n).1 :=
  exec_seq .hello nofun nofun nofun i h n hguard

/-! ### The loop of a RERR -/

@[simp] theorem send_slots (target : RerrTarget) (packet : Packet) (n : Node) (i : Fin 256) :
    ((target.send packet).apply n).routes.slots i = n.routes.slots i := by
  unfold RerrTarget.send
  split <;> rfl

/-- The loop leaves the entry alone or breaks it and copies the number of a pair
    for an address of its slot. -/
theorem rerrLoop_seq (env : Env) (s : U32) (pairs : List (U32 × U32)) (l : RerrLocals)
    (n : Node) (i : Fin 256) (e : RoutingEntry) (he : n.routes.slots i = some e) :
    ∃ e', ((rerrLoop env s pairs l).exec Op.apply n).1.routes.slots i = some e' ∧
      e'.seqValid = e.seqValid ∧
      (e' = e ∨ (e.goesThrough s = true ∧
        ∃ pair ∈ pairs, slotOf pair.1 = i ∧ e'.destSeq = pair.2)) := by
  induction pairs generalizing l n e with
  | nil =>
      refine ⟨e, ?_, rfl, Or.inl rfl⟩
      unfold rerrLoop
      split
      · exact he
      · simp only [Prog.exec, acceptPacket, send_slots]
        exact he
  | cons pair rest ih =>
      -- What is left to do leads on from an entry the pair has or has not broken.
      have hskip : ∀ l, ∃ e', ((rerrLoop env s rest l).exec Op.apply n).1.routes.slots i = some e' ∧
          e'.seqValid = e.seqValid ∧ (e' = e ∨ (e.goesThrough s = true ∧
            ∃ p ∈ pair :: rest, slotOf p.1 = i ∧ e'.destSeq = p.2)) := by
        intro l
        rcases ih l n e he with ⟨e', he', hvalid, hseq⟩
        refine ⟨e', he', hvalid, hseq.imp id (fun hb => ⟨hb.1, ?_⟩)⟩
        rcases hb.2 with ⟨p, hp, hslot, hnum⟩
        exact ⟨p, List.mem_cons_of_mem _ hp, hslot, hnum⟩
      simp only [rerrLoop, Prog.exec]
      cases hfound : n.getRoutingEntry pair.1 with
      | none => exact hskip l
      | some found =>
          simp only []
          by_cases hthrough : found.goesThrough s = true
          · rw [if_pos hthrough]
            simp only [Prog.exec]
            have hslots : ((Op.breakRoute env pair.1 pair.2).apply n).routes.slots i =
                if i = slotOf pair.1 then some (e.breakRoute env pair.2) else some e := by
              rw [apply_slots, he]
              rfl
            by_cases hi : i = slotOf pair.1
            · rw [if_pos hi] at hslots
              rw [Node.getRoutingEntry_eq, ← hi, he, Option.some.injEq] at hfound
              rw [← hfound] at hthrough
              rcases ih _ _ _ hslots with ⟨e', he', hvalid, hseq⟩
              refine ⟨e', he', hvalid, Or.inr ⟨hthrough, ?_⟩⟩
              rcases hseq with rfl | ⟨-, p, hp, hslot, hnum⟩
              · exact ⟨pair, List.mem_cons_self, hi.symm, rfl⟩
              · exact ⟨p, List.mem_cons_of_mem _ hp, hslot, hnum⟩
            · rw [if_neg hi] at hslots
              rcases ih _ _ _ hslots with ⟨e', he', hvalid, hseq⟩
              refine ⟨e', he', hvalid, hseq.imp id (fun hb => ⟨hb.1, ?_⟩)⟩
              rcases hb.2 with ⟨p, hp, hslot, hnum⟩
              exact ⟨p, List.mem_cons_of_mem _ hp, hslot, hnum⟩
          · rw [if_neg hthrough]
            exact hskip l

/-! ### The loop of a link break -/

/-- How many of the addresses have the slot. -/
def countIn (i : Fin 256) (list : List U32) : Nat := (list.filter (slotOf · = i)).length

theorem countIn_cons (i : Fin 256) (ip : U32) (rest : List U32) :
    countIn i (ip :: rest) = (if slotOf ip = i then 1 else 0) + countIn i rest := by
  unfold countIn
  rw [List.filter_cons]
  by_cases hslot : slotOf ip = i
  · rw [if_pos (decide_eq_true hslot), if_pos hslot, List.length_cons, Nat.add_comm]
  · rw [if_neg (fun h => hslot (of_decide_eq_true h)), if_neg hslot, Nat.zero_add]

/-- What `k` rounds of the loop leave of an entry. -/
structure Broken (k : Nat) (e e' : RoutingEntry) : Prop where
  destSeq : e'.destSeq = e.destSeq + BitVec.ofNat 32 k
  status : e'.status = if k = 0 then e.status else .routeInvalid
  seqValid : e'.seqValid = e.seqValid
  nextHop : e'.nextHop = e.nextHop
  destIp : e'.destIp = e.destIp

theorem broken_zero (e : RoutingEntry) : Broken 0 e e :=
  ⟨(BitVec.add_zero _).symm, rfl, rfl, rfl, rfl⟩

/-- One more round in front. -/
theorem broken_linkBreak (env : Env) (k : Nat) (e e' : RoutingEntry)
    (h : Broken k (e.linkBreak env) e') : Broken (1 + k) e e' := by
  refine ⟨?_, ?_, h.seqValid, h.nextHop, h.destIp⟩
  · rw [h.destSeq, BitVec.ofNat_add, ← BitVec.add_assoc]
    rfl
  · rw [h.status, if_neg (show ¬ 1 + k = 0 by omega)]
    by_cases hk : k = 0
    · rw [if_pos hk]
      rfl
    · rw [if_neg hk]

/-- The loop breaks an entry once for each listed address with its slot. -/
theorem breakLoop_breaks (env : Env) (dest : U32) (list : List U32) (l : BreakLocals) (n : Node)
    (i : Fin 256) (e : RoutingEntry) (he : n.routes.slots i = some e) :
    ∃ e', ((breakLoop env dest list l).exec Op.apply n).1.routes.slots i = some e' ∧
      Broken (countIn i list) e e' := by
  induction list generalizing l n e with
  | nil =>
      refine ⟨e, ?_, broken_zero e⟩
      simp only [breakLoop, Prog.exec, dropPacket, send_slots]
      exact he
  | cons ip rest ih =>
      rw [countIn_cons]
      simp only [breakLoop, Prog.exec]
      by_cases hi : slotOf ip = i
      · -- The address finds this very entry.
        have hfound : n.getRoutingEntry ip = some e := by
          rw [Node.getRoutingEntry_eq, hi, he]
        have hslots : ((Op.linkBreak env ip).apply n).routes.slots i =
            some (e.linkBreak env) := by
          rw [apply_slots, he]
          simp only [Op.effect, Effect.slot, if_pos hi.symm, Option.map_some]
        have hsome : (n.getRoutingEntry ip).isSome = true := by rw [hfound, Option.isSome_some]
        rw [if_pos hi, if_pos hsome]
        simp only [Prog.exec]
        rcases ih _ _ _ hslots with ⟨e', he', hbroken⟩
        exact ⟨e', he', broken_linkBreak env _ e e' hbroken⟩
      · rw [if_neg hi, Nat.zero_add]
        by_cases hfound : (n.getRoutingEntry ip).isSome = true
        · have hslots : ((Op.linkBreak env ip).apply n).routes.slots i = some e := by
            rw [apply_slots, he]
            simp only [Op.effect, Effect.slot, if_neg (Ne.symm hi)]
          rw [if_pos hfound]
          simp only [Prog.exec]
          exact ih _ _ _ hslots
        · rw [if_neg hfound]
          exact ih l n e he

/-- Two addresses of one slot differ in their lower 24 bits. -/
theorem eq_of_slotOf (a b : U32) (hslot : slotOf a = slotOf b)
    (hlow : a.toNat % 2 ^ 24 = b.toNat % 2 ^ 24) : a = b := by
  have hval : ∀ c : U32, (slotOf c).val = c.toNat / 2 ^ 24 := by
    intro c
    have hlt := c.isLt
    simp only [slotOf, Fin.ofNat, BitVec.toNat_ushiftRight, Nat.shiftRight_eq_div_pow]
    omega
  have htop := congrArg Fin.val hslot
  rw [hval, hval] at htop
  apply BitVec.eq_of_toNat_eq
  omega

/-- A list without repetition has at most one address for each value of the lower
    24 bits in a slot. -/
theorem countIn_le (i : Fin 256) (list : List U32) (h : list.Nodup) : countIn i list ≤ 2 ^ 24 := by
  let low (a : U32) : Fin (2 ^ 24) := ⟨a.toNat % 2 ^ 24, Nat.mod_lt _ (by decide)⟩
  have hinj : ∀ a ∈ list.filter (slotOf · = i), ∀ b ∈ list.filter (slotOf · = i),
      low a = low b → a = b := by
    intro a ha b hb hab
    have hslots : slotOf a = slotOf b := by
      rw [of_decide_eq_true (List.mem_filter.mp ha).2, of_decide_eq_true (List.mem_filter.mp hb).2]
    exact eq_of_slotOf a b hslots (congrArg Fin.val hab)
  have hnodup : ((list.filter (slotOf · = i)).map low).Nodup :=
    List.Nodup.map_on hinj (h.filter _)
  have hcard := hnodup.length_le_card
  rw [List.length_map, Fintype.card_fin] at hcard
  exact hcard

theorem addIfAbsent_nodup (list : List U32) (data : U32) (h : list.Nodup) :
    (addIfAbsent list data).Nodup := by
  unfold addIfAbsent
  by_cases hmem : data ∈ list
  · rw [if_pos hmem]
    exact h
  · rw [if_neg hmem]
    exact List.Nodup.append h (List.nodup_singleton data)
      (fun a ha hd => hmem (List.mem_singleton.mp hd ▸ ha))

/-- No address is listed twice under a next hop. -/
theorem nextHopFor_nodup (ip bcast : U32) (hello : Nat → Byte) (inputs : List Input) :
    (run step (Node.boot ip bcast hello) inputs).Entries fun e => e.nextHopFor.Nodup := by
  refine run_entries _ (fun o n e heff => ?_) (fun o n ip f e heff he => ?_) ip bcast hello inputs
  · cases o with
    | create =>
        cases heff
        exact List.nodup_nil
    | previousHop | reverseRoute | hello | forwardRoute | searchFound | activate | breakRoute
    | linkBreak | outgoingBreak | expireRoute | removeEntry | write | startSearch | beginWait
    | moveWaiter | moveHello | incrementSequenceNum | writeSequenceNum | sendRreq | searchFailed
    | sendUnicast | sendBroadcast => cases heff
  · cases o with
    -- The one list of destinations is added to only when the address is not there.
    | previousHop env s l new =>
        cases heff
        rcases previousHop_eq env new e l with ⟨t, ht⟩
        rw [ht]
        exact addIfAbsent_nodup _ _ he
    | reverseRoute | hello | forwardRoute =>
        rw [(effect_frame n _ ip f heff trivial e).nextHopFor]
        exact he
    | activate ip =>
        cases heff
        rw [activate_eq]
        exact he
    | write ip w =>
        cases heff
        cases w <;> exact he
    | searchFound | breakRoute | linkBreak | outgoingBreak | expireRoute | startSearch
    | searchFailed =>
        cases heff
        exact he
    | create | removeEntry | beginWait | moveWaiter | moveHello | incrementSequenceNum
    | writeSequenceNum | sendRreq | sendUnicast | sendBroadcast => cases heff

/-! ### Steps -/

/-- The entry of the slot stays and its number is not older. -/
def NotBack (i : Fin 256) (n n' : Node) : Prop :=
  ∀ e, n.routes.slots i = some e → e.seqValid = .seqValid →
    ∃ e', n'.routes.slots i = some e' ∧ NotOlder e'.destSeq e.destSeq

theorem notBack_of_same {i : Fin 256} {n n' : Node} (h : SeqKept .hello i n n') :
    NotBack i n n' := by
  intro e he hvalid
  rcases h e he hvalid with ⟨e', he', -, hseq⟩
  refine ⟨e', he', ?_⟩
  rcases hseq with hsame | hfalse
  · rw [hsame]
    exact notOlder_refl _
  · exact absurd hfalse id

/-- A link break counts a number up by far less than half the range. -/
theorem forwardedBreak_seq (env : Env) (dest hopIp : U32) (n : Node)
    (hlists : n.Entries fun e => e.nextHopFor.Nodup) (i : Fin 256) :
    NotBack i n ((forwardedBreak env dest hopIp).exec Op.apply n).1 := by
  intro e he hvalid
  simp only [forwardedBreak, Prog.exec]
  cases hhop : n.getRoutingEntry hopIp with
  | none => exact ⟨e, he, notOlder_refl _⟩
  | some destHop =>
      simp only [Prog.exec]
      obtain ⟨e₁, he₁, hvalid₁, hseq₁⟩ :=
        apply_seq .hello (fun _ _ _ h => by cases h) (fun _ _ h => by cases h)
        (fun _ h => by cases h) i
        (.write hopIp (.timer env (toU32 deletePeriod))) n trivial e he hvalid
      rcases breakLoop_breaks env dest destHop.nextHopFor
        (breakStart env destHop) _ i e₁ he₁ with ⟨e', he', hbroken⟩
      refine ⟨e', he', ?_⟩
      -- The list has no address twice, so a slot is counted up less than half the ring.
      have hle := countIn_le i _ (hlists _ destHop hhop)
      rw [NotOlder, seqCompare_eq, hbroken.destSeq, hseq₁.resolve_right id,
        signedDistance_add _ _ (by omega)]
      exact Int.natCast_nonneg _

theorem forwardedMessages_seq (env : Env) (src dest : U32) (n : Node)
    (hlists : n.Entries fun e => e.nextHopFor.Nodup) (i : Fin 256) :
    NotBack i n ((forwardedMessages env src dest).exec Op.apply n).1 := by
  have herror : ∀ seq, NotBack i n ((forwardedError dest seq).exec Op.apply n).1 := fun seq =>
    notBack_of_same (exec_seq_same i _ n (forwardedError_guard dest seq n))
  -- Over the next hop: pass the packet on, or break all routes through it.
  have hover : ∀ hopIp srcEntry other,
      NotBack i n ((forwardedOver env src dest hopIp srcEntry other).exec Op.apply n).1 := by
    intro hopIp srcEntry other
    simp only [forwardedOver, Prog.exec]
    split
    · have hpass := notBack_of_same
        (exec_seq_same i _ n (forwardedPass_guard env src dest srcEntry n))
      cases other with
      | false => exact hpass
      | true => exact hpass
    · split
      · exact forwardedBreak_seq env dest hopIp n hlists i
      · exact herror _
  simp only [forwardedMessages, Prog.exec]
  split
  · simp only [Prog.exec]
    split
    · exact herror 0
    · split
      · exact herror _
      · split
        · exact hover _ _ true
        · exact hover _ _ false
  · exact herror 0

/-- How a number moves in a step: up or not at all, except that a RERR leaves its
    own number with an entry it breaks. Nothing is said of a request whose number
    is the larger one unsigned and the older one signed. -/
def SeqMoves (event : Event) (i : Fin 256) (e e' : RoutingEntry) : Prop :=
  match event with
  | .control _ (.rreq m) =>
    (i = slotOf m.srcIp → m.srcSeq > e.destSeq → NotOlder m.srcSeq e.destSeq) →
      NotOlder e'.destSeq e.destSeq
  | .control s (.rerr header pairs) =>
    e'.destSeq = e.destSeq ∨ (e.goesThrough s = true ∧
      ∃ pair ∈ rerrPairs header.destCount pairs, slotOf pair.1 = i ∧ e'.destSeq = pair.2)
  | _ => NotOlder e'.destSeq e.destSeq

theorem seqMoves_of_notBack (event : Event) (i : Fin 256) (e e' : RoutingEntry)
    (hrerr : ∀ s h p, event ≠ .control s (.rerr h p)) (h : NotOlder e'.destSeq e.destSeq) :
    SeqMoves event i e e' := by
  cases event with
  | control s message =>
      cases message with
      | rreq m => exact fun _ => h
      | rrep m => exact h
      | rerr header pairs => exact absurd rfl (hrerr s header pairs)
  | data | outgoing | forwarded | search | wait | expire | rreqIdExpire | hello => exact h

/-- What a handler of the ordinary kind writes moves the number as it should. -/
theorem seqMoves_of_kept (event : Event) (i : Fin 256) (n n' : Node) (e e' : RoutingEntry)
    (hrerr : ∀ s h p, event ≠ .control s (.rerr h p)) (hkept : SeqKept event i n n')
    (he : n.routes.slots i = some e) (he' : n'.routes.slots i = some e')
    (hvalid : e.seqValid = .seqValid) : SeqMoves event i e e' := by
  rcases hkept e he hvalid with ⟨e'', he'', -, hseq⟩
  cases he'.symm.trans he''
  rcases hseq with hsame | hwrite
  · exact seqMoves_of_notBack event i e e' hrerr (hsame ▸ notOlder_refl _)
  · -- A number is written from a message only, and a RERR is left out here.
    cases event with
    | control s message =>
        cases message with
        | rreq m =>
            intro hsigned
            rw [hwrite.2.1]
            exact hsigned hwrite.1 hwrite.2.2
        | rrep m =>
            have hnew : NotOlder e'.destSeq e.destSeq := hwrite.2.1 ▸ hwrite.2.2
            exact hnew
        | rerr header pairs => exact absurd rfl (hrerr s header pairs)
    | data | outgoing | forwarded | search | wait | expire | rreqIdExpire | hello =>
        exact absurd hwrite id

/-- An expiration writes no number; it removes an entry or makes it invalid. -/
theorem expirationFunc_seq (env : Env) (ip : U32) (n : Node) (i : Fin 256) (e e' : RoutingEntry)
    (he : n.routes.slots i = some e)
    (he' : ((expirationFunc env ip).exec Op.apply n).1.routes.slots i = some e') :
    e'.destSeq = e.destSeq := by
  -- The timer breaks the route or removes it, and writes no number.
  have hop : ∀ o : Op, o = .expireRoute env ip ∨ o = .removeEntry ip →
      (o.apply n).routes.slots i = some e' → e'.destSeq = e.destSeq := by
    intro o ho hslot
    rw [apply_slots, he] at hslot
    rcases ho with rfl | rfl
    · simp only [Op.effect, Effect.slot, Option.map_some] at hslot
      split at hslot
      · cases hslot
        rfl
      · cases hslot
        rfl
    · simp only [Op.effect, Effect.slot] at hslot
      split at hslot
      · cases hslot
      · cases hslot
        rfl
  simp only [expirationFunc, Prog.exec] at he'
  split at he'
  · simp only [Prog.exec] at he'
    split at he'
    · exact hop _ (Or.inl rfl) he'
    · exact hop _ (Or.inr rfl) he'
  · cases he.symm.trans he'
    rfl

/-- In every state of a run, a step moves the numbers of the entries that stay as
    `SeqMoves` says. -/
theorem step_seq_moves (ip bcast : U32) (hello : Nat → Byte) (inputs : List Input)
    (input : Input) (i : Fin 256) (e e' : RoutingEntry)
    (he : (run step (Node.boot ip bcast hello) inputs).routes.slots i = some e)
    (he' : (step (run step (Node.boot ip bcast hello) inputs) input).routes.slots i = some e')
    (hvalid : e.seqValid = .seqValid) : SeqMoves input.event i e e' := by
  have hlists := nextHopFor_nodup ip bcast hello inputs
  generalize run step (Node.boot ip bcast hello) inputs = n at he he' hlists
  -- The handlers with loops and the expiration are looked at one by one.
  have hordinary : (∀ s h p, input.event ≠ .control s (.rerr h p)) →
      (∀ s d, input.event ≠ .forwarded s d) → (∀ ip, input.event ≠ .expire ip) →
      SeqMoves input.event i e e' := fun hrerr hforwarded hexpire =>
    seqMoves_of_kept input.event i n _ e e' hrerr
      (exec_seq input.event hrerr hforwarded hexpire i input.handler n (handler_guard n input))
      he he' hvalid
  cases input with
  | mk env event =>
      cases event with
      | control s message =>
          cases message with
          | rreq m | rrep m =>
              exact hordinary (fun _ _ _ h => by cases h) (fun _ _ h => by cases h)
                (fun _ h => by cases h)
          | rerr header pairs =>
              rw [step_rerr] at he'
              split at he'
              · cases he.symm.trans he'
                exact Or.inl rfl
              · rcases rerrLoop_seq env s _ _ n i e he with ⟨e'', he'', -, hseq⟩
                cases he'.symm.trans he''
                exact hseq.imp (congrArg RoutingEntry.destSeq) id
      | forwarded src dest =>
          rcases forwardedMessages_seq env src dest n hlists i e he hvalid with ⟨e'', he'', hback⟩
          cases he'.symm.trans he''
          exact hback
      | expire ip =>
          have hsame := expirationFunc_seq env ip n i e e' he he'
          exact seqMoves_of_notBack _ i e e' (fun _ _ _ h => by cases h) (hsame ▸ notOlder_refl _)
      | data | outgoing | search | wait | rreqIdExpire | hello =>
          exact hordinary (fun _ _ _ h => by cases h) (fun _ _ h => by cases h)
            (fun _ h => by cases h)

/-- A second reply raises the number of the first. -/
theorem step_seq_moves_reply :
    let n := run step (Node.boot 0x01000000 0xFF000000 fun _ => 0)
      [receive 0x02000000 (replyAfter 1 0x03000000 5 0x01000000)]
    let input := receive 0x02000000 (replyAfter 1 0x03000000 7 0x01000000)
    ∃ e e', n.routes.slots 3 = some e ∧ (step n input).routes.slots 3 = some e' ∧
      e.destSeq = 5 ∧ e'.destSeq = 7 ∧ SeqMoves input.event 3 e e' :=
  ⟨_, _, rfl, rfl, rfl, rfl,
    step_seq_moves 0x01000000 0xFF000000 (fun _ => 0)
      [receive 0x02000000 (replyAfter 1 0x03000000 5 0x01000000)]
      (receive 0x02000000 (replyAfter 1 0x03000000 7 0x01000000)) 3 _ _ rfl rfl rfl⟩

/-- The numbers in the message lie within half the range of the stored one. -/
def Event.Near (event : Event) (stored : U32) : Prop :=
  match event with
  | .control _ (.rreq m) => |seqCompare m.srcSeq stored| < 2 ^ 31
  | .control _ (.rrep m) => |seqCompare m.destSeq stored| < 2 ^ 31
  | .control _ (.rerr header pairs) =>
    ∀ pair ∈ rerrPairs header.destCount pairs, |seqCompare pair.2 stored| < 2 ^ 31
  | _ => True

/-- The step takes a valid number of the slot's entry back, though the message's
    numbers are near. -/
def GoesBack (inputs : List Input) (input : Input) (i : Fin 256) : Prop :=
  let n := run step (Node.boot 0x01000000 0xFF000000 fun _ => 0) inputs
  ∃ e e', n.routes.slots i = some e ∧ (step n input).routes.slots i = some e' ∧
    e.seqValid = .seqValid ∧ e'.seqValid = .seqValid ∧ input.event.Near e.destSeq ∧
    ¬ NotOlder e'.destSeq e.destSeq

/-- A RERR takes a number back, and so does a request whose number has rolled
    over on the way back. -/
theorem goesBack_rerr_rreq :
    GoesBack [receive 0x02000000 (replyAfter 1 0x03000000 5 0x01000000)]
        (receive 0x02000000 (errorAbout 0x03000000 3)) 3 ∧
      GoesBack [receive 0x02000000 (requestFor 1 1 0x04000000 0x03000000 1)]
        (receive 0x02000000 (requestFor 1 2 0x04000000 0x03000000 0xFFFFFFFF)) 3 := by
  have hrerr : (receive 0x02000000 (errorAbout 0x03000000 3)).event.Near 5 := by
    intro pair hpair
    rw [List.mem_singleton.mp hpair]
    have hdist : seqCompare 3 5 = -2 := by decide
    show |seqCompare 3 5| < 2 ^ 31
    rw [hdist, abs_lt]
    omega
  have hrreq :
      (receive 0x02000000 (requestFor 1 2 0x04000000 0x03000000 0xFFFFFFFF)).event.Near 1 := by
    have hdist : seqCompare 0xFFFFFFFF 1 = -2 := by decide
    show |seqCompare 0xFFFFFFFF 1| < 2 ^ 31
    rw [hdist, abs_lt]
    omega
  exact ⟨⟨_, _, rfl, rfl, rfl, rfl, hrerr, by decide⟩,
    ⟨_, _, rfl, rfl, rfl, rfl, hrreq, by decide⟩⟩

end OpenManet
