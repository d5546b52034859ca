import OpenManet.Library.DistanceVector
import OpenManet.Library.Selection
import OpenManet.Theory.Freshness
import OpenManet.Theory.Installing
import OpenManet.Theory.KernelRoutes

/-!
# Which Route Is Kept

Replies about one destination come in over several neighbours, and so do requests of
one originator. Each is an offer of a route, and the entry should end up with the best
of them: the newest number, among these the fewest hops, and the earliest on a tie.

What an entry ends up with is what its update test chooses, by `run_holds`: the first
offer is always taken, since an entry made for the previous hop has no valid number,
and every other one is taken or not by the test alone. The test of a reply takes every
number that is not older and so ends with the last of the newest, however long its way.
The test of a request looks at the hops, but compares the numbers unsigned: it ends
with the largest, which past the rollover is not the newest.

## Main definitions

* `Offer`: A route as a message offers it.
* `Input.replyAbout`, `repliesAbout`, `Input.requestOf`, `requestsOf`: The offers of a
  run.
* `IsBest`: The offer that should be kept.
* `KeepsBest`: It is.
* `FeedsOffer`, `Unremembered`: The inputs the results are about.
* `BestComesLast`, `NewestIsLargest`: When they hold.

## Theorems

* `run_holds`: An entry holds what its update test has chosen.
* `best_reply_kept_iff`: When the best of a list of replies is kept.
* `best_request_kept_iff`: When the best of a list of requests is.
-/

namespace OpenManet

/-- The neighbour a message came from, the number it gives the address it installs a
    route to, and the hops it says it has made. -/
structure Offer where
  sender : U32
  seq : U32
  hops : Byte
  deriving DecidableEq, Repr

/-- The route to `d` a reply offers; a hello offers none. -/
def Input.replyAbout (d : U32) (input : Input) : Option Offer :=
  match input.event with
  | .control s (.rrep m) =>
    if m.destIp = d ∧ m.srcIp ≠ 0 then some { sender := s, seq := m.destSeq, hops := m.hopCount }
    else none
  | _ => none

def repliesAbout (d : U32) (inputs : List Input) : List Offer :=
  inputs.filterMap (Input.replyAbout d)

/-- The route back to `origin` a request offers. -/
def Input.requestOf (origin : U32) (input : Input) : Option Offer :=
  match input.event with
  | .control s (.rreq m) =>
    if m.srcIp = origin then some { sender := s, seq := m.srcSeq, hops := m.hopCount } else none
  | _ => none

def requestsOf (origin : U32) (inputs : List Input) : List Offer :=
  inputs.filterMap (Input.requestOf origin)

/-- No number is newer, and at the same number none that came before has as few hops
    and none that came after has fewer. -/
def IsBest (offers : List Offer) (o : Offer) : Prop :=
  ∃ before after, offers = before ++ o :: after ∧
    (∀ o' ∈ offers, seqCompare o.seq o'.seq ≥ 0) ∧
    (∀ o' ∈ before, o'.seq = o.seq → o.hops < o'.hops) ∧
    ∀ o' ∈ after, o'.seq = o.seq → o.hops ≤ o'.hops

/-- No number is newer, and none that came after is the same. -/
def IsLastNewest (offers : List Offer) (o : Offer) : Prop :=
  ∃ before after, offers = before ++ o :: after ∧
    (∀ o' ∈ offers, seqCompare o.seq o'.seq ≥ 0) ∧ ∀ o' ∈ after, o'.seq ≠ o.seq

/-- The number, the hop count and the next hop of the route to `d`. -/
def Node.routeTo (d : U32) (n : Node) : Option (U32 × U32 × U32) :=
  (n.getRoutingEntry d).map fun e => (e.destSeq, e.hopCount, e.nextHop)

/-- The route to `d` is the best one offered, one hop longer than in the message. -/
def KeepsBest (d : U32) (offers : List Offer) (n : Node) : Prop :=
  ∃ o, IsBest offers o ∧ n.routeTo d = some (o.seq, o.hops.setWidth 32 + 1, o.sender)

/-- What the update tests and these results read of an entry. -/
def RoutingEntry.route (e : RoutingEntry) : SeqValid × U32 × U32 × U32 :=
  (e.seqValid, e.destSeq, e.hopCount, e.nextHop)

/-- An offer comes from a neighbour in a slot of its own and has hops left to count;
    whatever else happens leaves the route to `d` as it is. -/
def FeedsOffer (offerOf : Input → Option Offer) (d : U32) (n : Node) (input : Input) : Prop :=
  match offerOf input with
  | some o => o.sender ≠ n.ipAddress ∧ (o.sender ≠ d → slotOf o.sender ≠ slotOf d) ∧
      o.hops.toNat < 255
  | none => ((step n input).getRoutingEntry d).map RoutingEntry.route =
      (n.getRoutingEntry d).map RoutingEntry.route

/-- A request of the originator finds another id remembered. -/
def Unremembered (origin : U32) (n : Node) (input : Input) : Prop :=
  match input.event with
  | .control s (.rreq m) => m.srcIp = origin →
      ∀ e, (afterPreviousHop input.env s origin n).getRoutingEntry origin = some e →
        e.rreqId ≠ m.rreqId
  | _ => True

/-- The last of the newest offers has the neighbour and the hops of the best one. -/
def BestComesLast (offers : List Offer) : Prop :=
  ∃ best last, IsBest offers best ∧ IsLastNewest offers last ∧ last.hops = best.hops ∧
    last.sender = best.sender

/-- No number is larger than the newest, read as an unsigned number. -/
def NewestIsLargest (offers : List Offer) : Prop :=
  ∃ o ∈ offers, ∀ o' ∈ offers, seqCompare o.seq o'.seq ≥ 0 ∧ o'.seq ≤ o.seq

/-! ### What the entry holds -/

/-- The route an offer installs. -/
def Offer.route (o : Offer) : SeqValid × U32 × U32 × U32 :=
  (.seqValid, o.seq, o.hops.setWidth 32 + 1, o.sender)

/-- The entry of `d` is as the offer kept has made it. -/
def Holds (d : U32) (kept : Option Offer) (n : Node) : Prop :=
  (n.getRoutingEntry d).map RoutingEntry.route = kept.map Offer.route

theorem route_unmarked : Unmarked RoutingEntry.route := fun _ _ _ _ _ => rfl

/-- The hop count a message has been given fits its byte. -/
theorem hops_incremented (hops : Byte) (h : hops.toNat < 255) :
    (hops + 1).setWidth 32 = hops.setWidth 32 + (1 : U32) := by
  have hone : (1 : U32).toNat = 1 ∧ (1 : Byte).toNat = 1 := ⟨rfl, rfl⟩
  apply BitVec.eq_of_toNat_eq
  simp only [BitVec.toNat_setWidth, BitVec.toNat_add, hone.1, hone.2]
  omega

theorem holds_none (d : U32) (n : Node) : Holds d none n ↔ n.getRoutingEntry d = none := by
  unfold Holds
  rw [Option.map_none, Option.map_eq_none_iff]

theorem holds_some (d : U32) (o : Offer) (n : Node) (h : Holds d (some o) n) :
    ∃ e, n.getRoutingEntry d = some e ∧ e.route = o.route :=
  Option.map_eq_some_iff.mp h

/-- An entry holds what its update test has chosen among the offers. -/
theorem run_holds (offerOf : Input → Option Offer) (takes : Offer → Offer → Prop)
    [DecidableRel takes] (ok : Node → Input → Prop) (d : U32)
    (hoffer : ∀ n input o kept, ok n input → offerOf input = some o → Holds d kept n →
      Holds d (keep takes kept o) (step n input))
    (hother : ∀ n input, ok n input → offerOf input = none →
      ((step n input).getRoutingEntry d).map RoutingEntry.route =
        (n.getRoutingEntry d).map RoutingEntry.route)
    (inputs : List Input) (n : Node) (kept : Option Offer) (hn : Holds d kept n)
    (hok : AllSteps step ok n inputs) :
    Holds d ((inputs.filterMap offerOf).foldl (keep takes) kept) (run step n inputs) := by
  induction inputs generalizing n kept with
  | nil => exact hn
  | cons input rest ih =>
      rw [run_cons]
      cases ho : offerOf input with
      | none =>
          rw [List.filterMap_cons_none ho]
          exact ih (step n input) kept ((hother n input hok.1 ho).trans hn) hok.2
      | some o =>
          rw [List.filterMap_cons_some ho, List.foldl_cons]
          exact ih (step n input) _ (hoffer n input o kept hok.1 ho hn) hok.2

/-- What a route section finds of the kept offer after the section of the previous hop:
    nothing, or an entry without a valid number, where nothing has been kept. -/
theorem afterPreviousHop_holds (env : Env) (s listed d : U32) (kept : Option Offer) (n : Node)
    (hn : Holds d kept n) (e : RoutingEntry)
    (he : (afterPreviousHop env s listed n).getRoutingEntry d = some e) :
    (kept = none ∧ e.seqValid = .seqInvalid) ∨ ∃ o, kept = some o ∧ e.route = o.route := by
  cases kept with
  | none =>
      refine Or.inl ⟨rfl, ?_⟩
      rw [holds_none] at hn
      rcases afterPreviousHop_found env s listed n d e he with ⟨e₀, he₀, _⟩ | ⟨_, _, _, _, hinvalid⟩
      · rw [hn] at he₀
        cases he₀
      · exact hinvalid
  | some o =>
      rcases holds_some d o n hn with ⟨e₀, he₀, hroute⟩
      rcases afterPreviousHop_kept env s listed n d e₀ he₀ with ⟨e', he', hsame⟩
      rw [he, Option.some.injEq] at he'
      subst he'
      refine Or.inr ⟨o, rfl, ?_⟩
      rw [← hroute, RoutingEntry.route, RoutingEntry.route, hsame.seqValid, hsame.destSeq,
        hsame.hopCount, hsame.nextHop]

/-- Where something is kept, the entry is not a new one. -/
theorem afterPreviousHop_isNew (env : Env) (s listed d : U32) (o : Offer) (n : Node)
    (hn : Holds d (some o) n) : (afterPreviousHop env s listed n).isNew d = false := by
  rcases holds_some d o n hn with ⟨e₀, he₀, _⟩
  rcases afterPreviousHop_kept env s listed n d e₀ he₀ with ⟨e', he', _⟩
  rw [Node.isNew, he']
  rfl

/-- A section that writes a route finds the kept offer, or an entry that is new, and its
    test then decides between the two offers as `keep` does. -/
theorem installed_route (takes : Offer → Offer → Prop) [DecidableRel takes] (env : Env)
    (s listed d : U32) (kept : Option Offer) (n : Node) (hn : Holds d kept n) (o : Offer)
    (fresh : RoutingEntry) (test : RoutingEntry → Prop) [DecidablePred test]
    (hinvalid : ∀ e, e.seqValid = .seqInvalid → test e)
    (htest : ∀ e o', e.route = o'.route → (test e ↔ takes o o')) :
    some (if (afterPreviousHop env s listed n).isNew d = true ∨
        test (((afterPreviousHop env s listed n).getRoutingEntry d).getD fresh) then o.route
      else (((afterPreviousHop env s listed n).getRoutingEntry d).getD fresh).route) =
      (keep takes kept o).map Offer.route := by
  cases hfound : (afterPreviousHop env s listed n).getRoutingEntry d with
  | none =>
      -- The entry is made by the section itself.
      have hnew : (afterPreviousHop env s listed n).isNew d = true := by
        rw [Node.isNew, hfound]
        rfl
      rw [if_pos (Or.inl hnew)]
      cases kept with
      | none => rfl
      | some o' =>
          rw [afterPreviousHop_isNew env s listed d o' n hn] at hnew
          cases hnew
  | some e =>
      have hold : (afterPreviousHop env s listed n).isNew d = false := by
        rw [Node.isNew, hfound]
        rfl
      rw [Option.getD_some, hold, if_congr (or_iff_right Bool.false_ne_true) rfl rfl]
      rcases afterPreviousHop_holds env s listed d kept n hn e hfound with
        ⟨rfl, hunknown⟩ | ⟨o', rfl, hkept⟩
      · -- The entry was made for the previous hop, to which the route is.
        rw [if_pos (hinvalid e hunknown)]
        rfl
      · rw [keep_some]
        by_cases htaken : takes o o'
        · rw [if_pos ((htest e o' hkept).mpr htaken), if_pos htaken]
          rfl
        · rw [if_neg (mt (htest e o' hkept).mp htaken), if_neg htaken]
          exact congrArg some hkept

/-! ### Replies -/

theorem replyAbout_eq_some (d : U32) (input : Input) (o : Offer)
    (h : input.replyAbout d = some o) :
    ∃ s m, input.event = .control s (.rrep m) ∧ m.destIp = d ∧ m.srcIp ≠ 0 ∧
      o = { sender := s, seq := m.destSeq, hops := m.hopCount } := by
  unfold Input.replyAbout at h
  split at h
  · rename_i s m hevent
    split at h
    · rename_i hm
      exact ⟨s, m, hevent, hm.1, hm.2, (Option.some.inj h).symm⟩
    · cases h
  · cases h

/-- The update test of a reply, on offers. -/
def TakesReply (next kept : Offer) : Prop := seqCompare next.seq kept.seq ≥ 0

instance : DecidableRel TakesReply := fun next kept =>
  inferInstanceAs (Decidable (seqCompare next.seq kept.seq ≥ 0))

/-- What the section of a reply makes of the entry, taken or not. -/
theorem forwardRoute_route (env : Env) (s : U32) (m : RrepHeader) (new : Bool) (e : RoutingEntry) :
    (e.forwardRoute env s m new).route =
      if new = true ∨ fresherForward m e = true then
        (.seqValid, m.destSeq, m.hopCount.setWidth 32, s)
      else e.route := by
  by_cases hm : new = true ∨ fresherForward m e = true
  · rcases forwardRoute_accepted env s new e m hm with ⟨t, ht⟩
    rw [if_pos hm, ht]
    rfl
  · rcases forwardRoute_refused env s new e m hm with ⟨t, ht⟩
    rw [if_neg hm, ht]
    rfl

/-- A reply is kept or not as its update test says. -/
theorem step_reply_holds (d : U32) (n : Node) (input : Input) (o : Offer) (kept : Option Offer)
    (hfeeds : FeedsOffer (Input.replyAbout d) d n input) (ho : input.replyAbout d = some o)
    (hn : Holds d kept n) : Holds d (keep TakesReply kept o) (step n input) := by
  unfold FeedsOffer at hfeeds
  rw [ho] at hfeeds
  rcases hfeeds with ⟨hown, hslot, hhops⟩
  rcases replyAbout_eq_some d input o ho with ⟨s, m, hevent, rfl, hroute, rfl⟩
  rcases input with ⟨env, event⟩
  simp only [] at hevent hown hslot hhops
  subst hevent
  -- Publishing the outcome of a search writes no route.
  have hpublished : Holds m.destIp kept (afterPublish m n) :=
    (afterPublish_entry _ route_unmarked m n m.destIp).trans hn
  rw [step_rrep, if_neg hown, recvRrep_route env s m n hroute, Holds,
    installForwardRoute_entry _ route_unmarked]
  rw [show (incrementHopRrep m).destIp = m.destIp from rfl, if_pos rfl, forwardRoute_route,
    show (incrementHopRrep m).hopCount = m.hopCount + 1 from rfl,
    show (incrementHopRrep m).destSeq = m.destSeq from rfl, hops_incremented m.hopCount hhops]
  refine installed_route TakesReply env s m.destIp m.destIp kept _ hpublished
    { sender := s, seq := m.destSeq, hops := m.hopCount } _
    (fun e => fresherForward (incrementHopRrep m) e = true) (fun e hunknown => ?_)
    (fun e o' hroute' => ?_)
  · rw [fresherForward_eq, decide_eq_true hunknown, Bool.true_or]
  · have hparts := Prod.mk.inj hroute'
    have hvalid : e.seqValid ≠ .seqInvalid := by
      rw [hparts.1]
      decide
    rw [fresherForward_eq, decide_eq_false hvalid, Bool.false_or, decide_eq_true_eq,
      (Prod.mk.inj hparts.2).1]
    rfl

/-! ### Requests -/

theorem requestOf_eq_some (origin : U32) (input : Input) (o : Offer)
    (h : input.requestOf origin = some o) :
    ∃ s m, input.event = .control s (.rreq m) ∧ m.srcIp = origin ∧
      o = { sender := s, seq := m.srcSeq, hops := m.hopCount } := by
  unfold Input.requestOf at h
  split at h
  · rename_i s m hevent
    split at h
    · rename_i hm
      exact ⟨s, m, hevent, hm, (Option.some.inj h).symm⟩
    · cases h
  · cases h

/-- The update test of a request, on offers: the numbers are compared unsigned. -/
def TakesRequest (next kept : Offer) : Prop :=
  next.seq > kept.seq ∨ (next.seq = kept.seq ∧ next.hops < kept.hops)

instance : DecidableRel TakesRequest := fun next kept =>
  inferInstanceAs (Decidable (next.seq > kept.seq ∨ (next.seq = kept.seq ∧ next.hops < kept.hops)))

theorem reverseRoute_route (env : Env) (s : U32) (m : RreqHeader) (new : Bool) (e : RoutingEntry) :
    (e.reverseRoute env s m new).route =
      if new = true ∨ fresherReverse m e = true then
        (.seqValid, m.srcSeq, m.hopCount.setWidth 32, s)
      else e.route := by
  by_cases hm : new = true ∨ fresherReverse m e = true
  · rcases reverseRoute_accepted env s new e m hm with ⟨t, ht⟩
    rw [if_pos hm, ht]
    rfl
  · rcases reverseRoute_refused env s new e m hm with ⟨t, ht⟩
    rw [if_neg hm, ht]
    rfl

/-- Counting one hop more on both sides keeps the order of hop counts. -/
theorem hops_lt_iff (hops hops' : Byte) :
    hops.setWidth 32 + (1 : U32) < hops'.setWidth 32 + 1 ↔ hops < hops' := by
  have hone : (1 : U32).toNat = 1 := rfl
  have hlt := hops.isLt
  have hlt' := hops'.isLt
  rw [BitVec.lt_def, BitVec.lt_def]
  simp only [BitVec.toNat_setWidth, BitVec.toNat_add, hone]
  omega

/-- The test of the section, against an entry that holds an offer. -/
theorem fresherReverse_iff (m : RreqHeader) (e : RoutingEntry) (s : U32) (hops : Byte) (o : Offer)
    (hm : m.hopCount.setWidth 32 = hops.setWidth 32 + (1 : U32)) (he : e.route = o.route) :
    fresherReverse m e = true ↔ TakesRequest ⟨s, m.srcSeq, hops⟩ o := by
  have hparts := Prod.mk.inj he
  have hroute := Prod.mk.inj hparts.2
  have hhops : e.hopCount = o.hops.setWidth 32 + 1 := (Prod.mk.inj hroute.2).1
  have hseq : e.destSeq = o.seq := hroute.1
  have hvalid : e.seqValid ≠ .seqInvalid := by
    rw [hparts.1]
    decide
  simp only [fresherReverse, Bool.or_eq_true, Bool.and_eq_true, decide_eq_true_eq, hvalid,
    or_false, TakesRequest, hm, hhops, hseq, hops_lt_iff]

/-- A request of another node is kept or not as its update test says. -/
theorem step_request_holds (origin : U32) (n : Node) (input : Input) (o : Offer)
    (kept : Option Offer) (hother : origin ≠ n.ipAddress)
    (hfeeds : FeedsOffer (Input.requestOf origin) origin n input)
    (hid : Unremembered origin n input) (ho : input.requestOf origin = some o)
    (hn : Holds origin kept n) : Holds origin (keep TakesRequest kept o) (step n input) := by
  unfold FeedsOffer at hfeeds
  rw [ho] at hfeeds
  rcases hfeeds with ⟨hown, hslot, hhops⟩
  rcases requestOf_eq_some origin input o ho with ⟨s, m, hevent, rfl, rfl⟩
  rcases input with ⟨env, event⟩
  simp only [] at hevent hown hslot hhops
  subst hevent
  -- It is neither the node's own nor one it remembers.
  have hnew : ¬ dropped m (afterPreviousHop env s m.srcIp n) := by
    intro hdrop
    have hsrc : m.srcIp ≠ (afterPreviousHop env s m.srcIp n).ipAddress := by
      rw [afterPreviousHop_ipAddress]
      exact hother
    rcases dropped_holds m _ hdrop hsrc with ⟨e, he, hsame⟩
    exact hid rfl e he hsame
  rw [step_rreq, if_neg hown, recvRreq_new env s m n hnew, Holds,
    recvNewRreq_entry _ route_unmarked]
  rw [show (incrementHopRreq m).srcIp = m.srcIp from rfl, if_pos rfl, reverseRoute_route,
    show (incrementHopRreq m).hopCount = m.hopCount + 1 from rfl,
    show (incrementHopRreq m).srcSeq = m.srcSeq from rfl, hops_incremented m.hopCount hhops]
  refine installed_route TakesRequest env s m.srcIp m.srcIp kept n hn
    { sender := s, seq := m.srcSeq, hops := m.hopCount } _
    (fun e => fresherReverse (incrementHopRreq m) e = true) (fun e hunknown => ?_)
    (fun e o' hroute => fresherReverse_iff (incrementHopRreq m) e s m.hopCount o'
      (hops_incremented m.hopCount hhops) hroute)
  simp only [fresherReverse, hunknown, decide_true, Bool.or_true, Bool.true_or]

/-- The node's own requests are dropped, and leave no entry for it. -/
theorem step_ownRequest_holds (n : Node) (input : Input) (o : Offer)
    (hfeeds : FeedsOffer (Input.requestOf n.ipAddress) n.ipAddress n input)
    (ho : input.requestOf n.ipAddress = some o) (hn : Holds n.ipAddress none n) :
    Holds n.ipAddress none (step n input) := by
  unfold FeedsOffer at hfeeds
  rw [ho] at hfeeds
  rcases hfeeds with ⟨hown, hslot, -⟩
  rcases requestOf_eq_some n.ipAddress input o ho with ⟨s, m, hevent, hm, rfl⟩
  rcases input with ⟨env, event⟩
  simp only [] at hevent hown hslot
  subst hevent
  -- All the handler does is to note its neighbour, in a slot of its own.
  have hdropped : dropped m (afterPreviousHop env s m.srcIp n) :=
    Or.inl (hm.trans (afterPreviousHop_ipAddress env s m.srcIp n).symm)
  rw [holds_none] at hn ⊢
  rw [step_rreq, if_neg hown, recvRreq_dropped env s m n hdropped, afterPreviousHop_getRoutingEntry,
    if_neg (Ne.symm (hslot hown))]
  exact hn

/-! ### The best of the offers -/

/-- An offer ranked by some measure of its number, and then by its hops. -/
def Offer.rank (newness : U32 → Nat) (o : Offer) : Rank := rankOf (newness o.seq) o.hops.toNat

theorem Offer.rank_lt (newness : U32 → Nat) (o o' : Offer) :
    o.rank newness < o'.rank newness ↔
      newness o.seq < newness o'.seq ∨ (newness o.seq = newness o'.seq ∧ o'.hops < o.hops) :=
  rankOf_lt _ _ _ _

theorem Offer.rank_le (newness : U32 → Nat) (o o' : Offer) (h : o.rank newness ≤ o'.rank newness) :
    newness o.seq ≤ newness o'.seq := by
  rcases (rankOf_le _ _ _ _).mp h with hlt | ⟨heq, -⟩
  · exact hlt.le
  · exact heq.le

section Window

variable (base : U32) (offers : List Offer) (hwindow : ∀ o ∈ offers, InWindow base o.seq)

include hwindow

theorem notOlder_iff (o o' : Offer) (ho : o ∈ offers) (ho' : o' ∈ offers) :
    seqCompare o.seq o'.seq ≥ 0 ↔ offsetFrom base o'.seq ≤ offsetFrom base o.seq := by
  rw [seqCompare_inWindow base o.seq o'.seq (hwindow o ho) (hwindow o' ho')]
  omega

/-- The best offer is the one of the highest rank, the earliest on a tie. -/
theorem isBest_iff_wins (o : Offer) : IsBest offers o ↔
    Wins (fun a b : Offer => b.rank (offsetFrom base) < a.rank (offsetFrom base)) offers o := by
  constructor
  · rintro ⟨before, after, rfl, hnewest, hbefore, hafter⟩
    have ho : o ∈ before ++ o :: after := List.mem_append_right _ List.mem_cons_self
    refine ⟨before, after, rfl, fun b hb => ?_, fun b hb => ?_⟩
    · -- Of what came before, equal numbers must have come over more hops.
      have hb' : b ∈ before ++ o :: after := List.mem_append_left _ hb
      have hle := (notOlder_iff base _ hwindow o b ho hb').mp (hnewest b hb')
      refine (Offer.rank_lt _ b o).mpr ?_
      rcases Nat.lt_or_eq_of_le hle with hlt | heq
      · exact Or.inl hlt
      · exact Or.inr ⟨heq, hbefore b hb (offsetFrom_inj base _ _ heq)⟩
    · -- Of what came after, none may have come over fewer.
      have hb' : b ∈ before ++ o :: after :=
        List.mem_append_right _ (List.mem_cons_of_mem _ hb)
      have hle := (notOlder_iff base _ hwindow o b ho hb').mp (hnewest b hb')
      intro hbetter
      rcases (Offer.rank_lt _ o b).mp hbetter with hlt | ⟨heq, hhops⟩
      · exact absurd hlt (by omega)
      · exact absurd hhops (BitVec.not_lt.mpr (hafter b hb (offsetFrom_inj base _ _ heq).symm))
  · intro hwins
    have hgreatest := wins_lt_greatest (Offer.rank (offsetFrom base)) offers o hwins
    rcases hwins with ⟨before, after, rfl, hbefore, hafter⟩
    have ho : o ∈ before ++ o :: after := List.mem_append_right _ List.mem_cons_self
    refine ⟨before, after, rfl, fun b hb => ?_, fun b hb heq => ?_, fun b hb heq => ?_⟩
    · rw [notOlder_iff base _ hwindow o b ho hb]
      exact Offer.rank_le _ b o (hgreatest b hb)
    · have hlt := (Offer.rank_lt _ b o).mp (hbefore b hb)
      rw [heq] at hlt
      exact (hlt.resolve_left (lt_irrefl _)).2
    · refine BitVec.not_lt.mp fun hfewer => hafter b hb ((Offer.rank_lt _ o b).mpr ?_)
      exact Or.inr ⟨congrArg _ heq.symm, hfewer⟩

/-- The last of the newest offers is what a test chooses that takes equals. -/
theorem isLastNewest_iff_wins (o : Offer) : IsLastNewest offers o ↔
    Wins (fun a b : Offer => offsetFrom base b.seq ≤ offsetFrom base a.seq) offers o := by
  constructor
  · rintro ⟨before, after, rfl, hnewest, hafter⟩
    have ho : o ∈ before ++ o :: after := List.mem_append_right _ List.mem_cons_self
    refine ⟨before, after, rfl, fun b hb => ?_, fun b hb hle' => ?_⟩
    · have hb' : b ∈ before ++ o :: after := List.mem_append_left _ hb
      exact (notOlder_iff base _ hwindow o b ho hb').mp (hnewest b hb')
    · -- Of what came after, none may have come over fewer.
      have hb' : b ∈ before ++ o :: after :=
        List.mem_append_right _ (List.mem_cons_of_mem _ hb)
      have hle := (notOlder_iff base _ hwindow o b ho hb').mp (hnewest b hb')
      exact hafter b hb (offsetFrom_inj base _ _ (by omega))
  · intro hwins
    have hgreatest := wins_le_greatest (fun o : Offer => offsetFrom base o.seq) offers o hwins
    rcases hwins with ⟨before, after, rfl, hbefore, hafter⟩
    have ho : o ∈ before ++ o :: after := List.mem_append_right _ List.mem_cons_self
    refine ⟨before, after, rfl, fun b hb => ?_, fun b hb heq => ?_⟩
    · exact (notOlder_iff base _ hwindow o b ho hb).mpr (hgreatest b hb)
    · exact hafter b hb (le_of_eq (congrArg (offsetFrom base) heq.symm))

/-- There is a best offer, and it is one only. -/
theorem exists_isBest (hsome : offers ≠ []) : ∃ o, IsBest offers o := by
  cases hbest : chosen (fun a b : Offer =>
      b.rank (offsetFrom base) < a.rank (offsetFrom base)) offers with
  | none => exact absurd (chosen_eq_none _ offers hbest) hsome
  | some o =>
      have hwins := (chosen_iff _ (preference_lt (Offer.rank (offsetFrom base))) offers o).mp hbest
      exact ⟨o, (isBest_iff_wins base offers hwindow o).mpr hwins⟩

/-- The best offer and the last of the newest have one number. -/
theorem IsBest.seq_eq (o o' : Offer) (h : IsBest offers o) (h' : IsLastNewest offers o') :
    o.seq = o'.seq := by
  rcases h with ⟨before, after, hsplit, hnewest, -, -⟩
  rcases h' with ⟨before', after', hsplit', hnewest', -⟩
  have ho : o ∈ offers := by
    rw [hsplit]
    exact List.mem_append_right _ List.mem_cons_self
  have ho' : o' ∈ offers := by
    rw [hsplit']
    exact List.mem_append_right _ List.mem_cons_self
  have hle := (notOlder_iff base offers hwindow o o' ho ho').mp (hnewest o' ho')
  have hge := (notOlder_iff base offers hwindow o' o ho' ho).mp (hnewest' o ho)
  exact offsetFrom_inj base _ _ (by omega)

end Window

/-! ### What is kept of replies -/

theorem routeTo_of_holds (d : U32) (o : Offer) (n : Node) (h : Holds d (some o) n) :
    n.routeTo d = some (o.seq, o.hops.setWidth 32 + 1, o.sender) := by
  rcases holds_some d o n h with ⟨e, he, hroute⟩
  unfold Node.routeTo
  rw [he]
  exact congrArg some (congrArg Prod.snd hroute)

/-- The hops of an offer can be read off the route it installs. -/
theorem hops_of_installed (hops hops' : Byte)
    (h : hops.setWidth 32 + (1 : U32) = hops'.setWidth 32 + 1) : hops = hops' := by
  have hwide : hops.setWidth 32 = hops'.setWidth 32 := (BitVec.add_left_inj 1).mp h
  rw [← BitVec.setWidth_eq hops, ← BitVec.setWidth_setWidth_of_le hops (show 8 ≤ 32 by decide),
    hwide, BitVec.setWidth_setWidth_of_le hops' (show 8 ≤ 32 by decide), BitVec.setWidth_eq]

section Replies

variable (base d : U32) (n : Node) (inputs : List Input)

/-- The entry ends up with the last of the newest replies. -/
theorem last_reply_kept (hnone : n.getRoutingEntry d = none)
    (hfeeds : AllSteps step (FeedsOffer (Input.replyAbout d) d) n inputs)
    (hwindow : ∀ o ∈ repliesAbout d inputs, InWindow base o.seq)
    (hsome : repliesAbout d inputs ≠ []) :
    ∃ o, IsLastNewest (repliesAbout d inputs) o ∧
      (run step n inputs).routeTo d = some (o.seq, o.hops.setWidth 32 + 1, o.sender) := by
  have hholds := run_holds (Input.replyAbout d) TakesReply _ d
    (fun n input o kept hok ho hn => step_reply_holds d n input o kept hok ho hn)
    (fun n input hok ho => by
      unfold FeedsOffer at hok
      rw [ho] at hok
      exact hok) inputs n none ((holds_none d n).mpr hnone) hfeeds
  -- In the window the test compares how far the numbers are from its base.
  rw [← repliesAbout, ← chosen, chosen_congr TakesReply
    (fun a b : Offer => offsetFrom base b.seq ≤ offsetFrom base a.seq) (repliesAbout d inputs)
    (fun a ha b hb => notOlder_iff base _ hwindow a b ha hb)] at hholds
  cases hlast : chosen (fun a b : Offer => offsetFrom base b.seq ≤ offsetFrom base a.seq)
      (repliesAbout d inputs) with
  | none => exact absurd (chosen_eq_none _ _ hlast) hsome
  | some o =>
      rw [hlast] at hholds
      have hwins :=
        (chosen_iff _ (preference_le fun o : Offer => offsetFrom base o.seq) _ o).mp hlast
      exact ⟨o, (isLastNewest_iff_wins base _ hwindow o).mpr hwins, routeTo_of_holds d o _ hholds⟩

/-- The best reply is kept exactly if the last of the newest ones is like it. -/
theorem keepsBest_iff_comesLast (offers : List Offer) (hwindow : ∀ o ∈ offers, InWindow base o.seq)
    (last : Offer) (hlast : IsLastNewest offers last) (n : Node)
    (hkept : n.routeTo d = some (last.seq, last.hops.setWidth 32 + 1, last.sender)) :
    KeepsBest d offers n ↔ BestComesLast offers := by
  constructor
  · rintro ⟨best, hbest, hroute⟩
    rw [hkept, Option.some.injEq, Prod.mk.injEq, Prod.mk.injEq] at hroute
    exact ⟨best, last, hbest, hlast, hops_of_installed _ _ hroute.2.1, hroute.2.2⟩
  · rintro ⟨best, last', hbest, hlast', hhops, hsender⟩
    have hsame : last = last' := Option.some.inj <|
      (chosen_of_wins _ _ _ ((isLastNewest_iff_wins base _ hwindow last).mp hlast)).symm.trans
        (chosen_of_wins _ _ _ ((isLastNewest_iff_wins base _ hwindow last').mp hlast'))
    subst hsame
    refine ⟨best, hbest, ?_⟩
    rw [hkept, IsBest.seq_eq base offers hwindow best last hbest hlast, hhops, hsender]

/-- The best of offers that differ in number or hops is the best in any order. -/
theorem IsBest.perm (offers offers' : List Offer) (hwindow : ∀ o ∈ offers, InWindow base o.seq)
    (hperm : offers'.Perm offers) (hdistinct : (offers.map fun o => (o.seq, o.hops)).Nodup)
    (o o' : Offer) (h : IsBest offers o) (h' : IsBest offers' o') : o = o' := by
  have hwindow' : ∀ o ∈ offers', InWindow base o.seq := fun o ho => hwindow o (hperm.mem_iff.mp ho)
  have hwins := (isBest_iff_wins base offers hwindow o).mp h
  have hwins' := (isBest_iff_wins base offers' hwindow' o').mp h'
  have ho : o ∈ offers := chosen_mem _ _ _ (chosen_of_wins _ _ _ hwins)
  have ho' : o' ∈ offers := hperm.mem_iff.mp (chosen_mem _ _ _ (chosen_of_wins _ _ _ hwins'))
  have hle := wins_lt_greatest _ offers o hwins o' ho'
  have hge := wins_lt_greatest _ offers' o' hwins' o (hperm.mem_iff.mpr ho)
  have hrank := (rankOf_le _ _ _ _).mp hle
  have hrank' := (rankOf_le _ _ _ _).mp hge
  have hseq : o.seq = o'.seq := offsetFrom_inj base _ _ (by omega)
  have hhops : o.hops = o'.hops := BitVec.eq_of_toNat_eq (by omega)
  exact List.inj_on_of_nodup_map hdistinct ho ho' (Prod.ext hseq hhops)

/-- The best of the replies is kept exactly if the last of the newest to arrive has its
    hops and came over the same neighbour. Where that is so, another order of arrival
    leaves the same route exactly if it is so there. -/
theorem best_reply_kept_iff (hnone : n.getRoutingEntry d = none)
    (hfeeds : AllSteps step (FeedsOffer (Input.replyAbout d) d) n inputs)
    (hwindow : ∀ o ∈ repliesAbout d inputs, InWindow base o.seq)
    (hsome : repliesAbout d inputs ≠ []) :
    (KeepsBest d (repliesAbout d inputs) (run step n inputs) ↔
      BestComesLast (repliesAbout d inputs)) ∧
    ∀ n' inputs', n'.getRoutingEntry d = none →
      AllSteps step (FeedsOffer (Input.replyAbout d) d) n' inputs' →
      (repliesAbout d inputs').Perm (repliesAbout d inputs) →
      ((repliesAbout d inputs).map fun o => (o.seq, o.hops)).Nodup →
      BestComesLast (repliesAbout d inputs) →
      ((run step n' inputs').routeTo d = (run step n inputs).routeTo d ↔
        BestComesLast (repliesAbout d inputs')) := by
  rcases last_reply_kept base d n inputs hnone hfeeds hwindow hsome with ⟨last, hlast, hkept⟩
  have hiff := keepsBest_iff_comesLast base d _ hwindow last hlast _ hkept
  refine ⟨hiff, fun n' inputs' hnone' hfeeds' hperm hdistinct hcomes => ?_⟩
  have hwindow' : ∀ o ∈ repliesAbout d inputs', InWindow base o.seq :=
    fun o ho => hwindow o (hperm.mem_iff.mp ho)
  have hsome' : repliesAbout d inputs' ≠ [] := fun hempty =>
    hsome (List.nil_perm.mp (hempty ▸ hperm))
  rcases last_reply_kept base d n' inputs' hnone' hfeeds' hwindow' hsome' with
    ⟨last', hlast', hkept'⟩
  have hiff' := keepsBest_iff_comesLast base d _ hwindow' last' hlast' _ hkept'
  rcases hiff.mpr hcomes with ⟨best, hbest, hroute⟩
  rcases exists_isBest base _ hwindow' hsome' with ⟨best', hbest'⟩
  -- Both lists have one best, and the first run has kept it.
  have hsame := IsBest.perm base _ _ hwindow hperm hdistinct best best' hbest hbest'
  subst hsame
  rw [hroute]
  constructor
  · intro hroute'
    exact hiff'.mp ⟨best, hbest', hroute'⟩
  · intro hcomes'
    rcases hiff'.mpr hcomes' with ⟨best', hbest'', hroute'⟩
    have hunique := IsBest.perm base _ _ hwindow hperm hdistinct best best' hbest hbest''
    rw [hroute', hunique]

end Replies

/-- A relay between an originator and two neighbours, at start-up. -/
def relayAtBoot : Node := Node.boot 0x02000000 0xFFFFFFFF (fun _ => 0)

/-- Two neighbours reply about 9.0.0.0, the second with a newer number. -/
def newerReply : List Input :=
  [receive 0x03000000 (replyAfter 1 0x09000000 5 0x01000000),
   receive 0x04000000 (replyAfter 3 0x09000000 6 0x01000000)]

theorem best_reply_kept_iff_newer :
    KeepsBest 0x09000000 (repliesAbout 0x09000000 newerReply) (run step relayAtBoot newerReply) :=
  (best_reply_kept_iff 0 0x09000000 relayAtBoot newerReply rfl
    ⟨⟨by decide, fun _ => by decide, by decide⟩, ⟨by decide, fun _ => by decide, by decide⟩,
      trivial⟩
    (by decide) (by decide)).1.mpr
    ⟨⟨0x04000000, 6, 3⟩, ⟨0x04000000, 6, 3⟩,
      ⟨[⟨0x03000000, 5, 1⟩], [], rfl, by decide, by decide, by decide⟩,
      ⟨[⟨0x03000000, 5, 1⟩], [], rfl, by decide, by decide⟩, rfl, rfl⟩

/-- Two neighbours reply with one number, the nearer one first. -/
def fartherReply : List Input :=
  [receive 0x03000000 (replyAfter 1 0x09000000 5 0x01000000),
   receive 0x04000000 (replyAfter 3 0x09000000 5 0x01000000)]

theorem IsBest.nearest {offers : List Offer} {o : Offer} (h : IsBest offers o) (o' : Offer)
    (ho' : o' ∈ offers) (hseq : o'.seq = o.seq) : o.hops ≤ o'.hops := by
  rcases h with ⟨before, after, rfl, -, hbefore, hafter⟩
  rcases List.mem_append.mp ho' with hb | hb
  · exact BitVec.le_of_lt (hbefore o' hb hseq)
  · rcases List.mem_cons.mp hb with rfl | hb
    · exact BitVec.le_refl _
    · exact hafter o' hb hseq

/-- The longer way of the two is kept, because it was offered last. -/
theorem not_best_reply_kept_farther :
    (relayAtBoot.getRoutingEntry 0x09000000 = none ∧
      AllSteps step (FeedsOffer (Input.replyAbout 0x09000000) 0x09000000) relayAtBoot
        fartherReply ∧
      (∀ o ∈ repliesAbout 0x09000000 fartherReply, InWindow 0 o.seq)) ∧
    ¬ KeepsBest 0x09000000 (repliesAbout 0x09000000 fartherReply)
      (run step relayAtBoot fartherReply) := by
  refine ⟨⟨rfl, ⟨⟨by decide, fun _ => by decide, by decide⟩,
    ⟨by decide, fun _ => by decide, by decide⟩, trivial⟩, by decide⟩, ?_⟩
  rintro ⟨o, hbest, hroute⟩
  have hkept : (run step relayAtBoot fartherReply).routeTo 0x09000000 =
      some (5, (3 : Byte).setWidth 32 + 1, 0x04000000) := rfl
  rw [hkept, Option.some.injEq, Prod.mk.injEq, Prod.mk.injEq] at hroute
  have hhops : o.hops ≤ 1 := hbest.nearest ⟨0x03000000, 5, 1⟩ List.mem_cons_self hroute.1
  rw [← hops_of_installed _ _ hroute.2.1] at hhops
  exact absurd hhops (by decide)

/-! ### What is kept of requests -/

section Requests

variable (origin : U32) (n : Node) (inputs : List Input)

/-- The winner of the test of a request is ranked by its number read unsigned. -/
theorem takesRequest_iff (o o' : Offer) :
    TakesRequest o o' ↔ o'.rank BitVec.toNat < o.rank BitVec.toNat := by
  rw [Offer.rank_lt, TakesRequest, gt_iff_lt, BitVec.lt_def, ← BitVec.toNat_inj, eq_comm]

theorem takesRequest_preference : Preference TakesRequest := by
  have hrank := preference_lt (Offer.rank BitVec.toNat)
  constructor
  · intro a b c hab hbc
    rw [takesRequest_iff] at hab hbc ⊢
    exact hrank.trans a b c hab hbc
  · intro a b c hab hcb
    rw [takesRequest_iff] at hab hcb ⊢
    exact hrank.carries a b c hab hcb

/-- The winner of the test is the best request exactly if no number is larger than the
    newest. -/
theorem wins_isBest_iff (offers : List Offer) (o : Offer) (hwins : Wins TakesRequest offers o) :
    (∃ best, IsBest offers best ∧ best.seq = o.seq ∧ best.hops = o.hops ∧
      best.sender = o.sender) ↔ NewestIsLargest offers := by
  have hlargest : ∀ b ∈ offers, b.seq ≤ o.seq := by
    have hwins' : Wins (fun a b : Offer => b.rank BitVec.toNat < a.rank BitVec.toNat) offers o := by
      rcases hwins with ⟨before, after, hsplit, hbefore, hafter⟩
      exact ⟨before, after, hsplit, fun b hb => (takesRequest_iff o b).mp (hbefore b hb),
        fun b hb hlt => hafter b hb ((takesRequest_iff b o).mpr hlt)⟩
    exact fun b hb => Offer.rank_le _ b o (wins_lt_greatest _ offers o hwins' b hb)
  have ho : o ∈ offers := chosen_mem _ _ _ (chosen_of_wins _ _ _ hwins)
  constructor
  · rintro ⟨best, ⟨before, after, hsplit, hnewest, -, -⟩, hseq, -, -⟩
    refine ⟨o, ho, fun b hb => ⟨?_, hlargest b hb⟩⟩
    rw [← hseq]
    exact hnewest b hb
  · rintro ⟨newest, hmem, hnewest⟩
    -- The newest number is the largest, so it is the winner's.
    have hseq : newest.seq = o.seq :=
      BitVec.le_antisymm (hlargest newest hmem) (hnewest o ho).2
    rcases hwins with ⟨before, after, rfl, hbefore, hafter⟩
    refine ⟨o, ⟨before, after, rfl, fun b hb => ?_, fun b hb heq => ?_, fun b hb heq => ?_⟩,
      rfl, rfl, rfl⟩
    · rw [← hseq]
      exact (hnewest b hb).1
    · rcases hbefore b hb with hlt | ⟨-, hhops⟩
      · exact absurd heq (BitVec.ne_of_lt hlt)
      · exact hhops
    · exact BitVec.not_lt.mp fun hfewer => hafter b hb (Or.inr ⟨heq, hfewer⟩)

/-- The best of the requests is kept exactly if they are another node's and no number is
    larger than the newest. -/
theorem best_request_kept_iff (hnone : n.getRoutingEntry origin = none)
    (hfeeds : AllSteps step (fun n input =>
      FeedsOffer (Input.requestOf origin) origin n input ∧ Unremembered origin n input) n inputs)
    (hsome : requestsOf origin inputs ≠ []) :
    KeepsBest origin (requestsOf origin inputs) (run step n inputs) ↔
      origin ≠ n.ipAddress ∧ NewestIsLargest (requestsOf origin inputs) := by
  have haddressed := AllSteps.with_invariant step _ (fun n' => n'.ipAddress = n.ipAddress)
    (fun n' input hip _ => (step_ipAddress n' input).trans hip) n inputs rfl hfeeds
  have hother : ∀ n' input, (FeedsOffer (Input.requestOf origin) origin n' input ∧
      Unremembered origin n' input) ∧ n'.ipAddress = n.ipAddress →
      input.requestOf origin = none →
      ((step n' input).getRoutingEntry origin).map RoutingEntry.route =
        (n'.getRoutingEntry origin).map RoutingEntry.route := by
    intro n' input hok ho
    have hfed := hok.1.1
    unfold FeedsOffer at hfed
    rw [ho] at hfed
    exact hfed
  by_cases hown : origin = n.ipAddress
  · -- The node's own requests leave no entry at all.
    have hempty : Holds origin none (run step n inputs) := by
      refine run_invariant step _ (Holds origin none) (fun n' input hn hok => ?_) n inputs
        ((holds_none origin n).mpr hnone) haddressed
      cases ho : input.requestOf origin with
      | none => exact (hother n' input hok ho).trans hn
      | some o =>
          have hsame : origin = n'.ipAddress := hown.trans hok.2.symm
          rw [hsame] at ho hn hok ⊢
          exact step_ownRequest_holds n' input o hok.1.1 ho hn
    rw [holds_none] at hempty
    refine ⟨fun ⟨best, _, hroute⟩ => ?_, fun h => absurd hown h.1⟩
    rw [Node.routeTo, hempty] at hroute
    cases hroute
  · have hholds := run_holds (Input.requestOf origin) TakesRequest _ origin
      (fun n' input o kept hok ho hn => step_request_holds origin n' input o kept
        (fun hsame => hown (hsame.trans hok.2)) hok.1.1 hok.1.2 ho hn)
      hother inputs n none ((holds_none origin n).mpr hnone) haddressed
    rw [← requestsOf, ← chosen] at hholds
    cases hchosen : chosen TakesRequest (requestsOf origin inputs) with
    | none => exact absurd (chosen_eq_none _ _ hchosen) hsome
    | some o =>
        rw [hchosen] at hholds
        have hkept := routeTo_of_holds origin o _ hholds
        have hwins := (chosen_iff TakesRequest takesRequest_preference _ o).mp hchosen
        rw [and_iff_right hown, ← wins_isBest_iff (requestsOf origin inputs) o hwins]
        constructor
        · rintro ⟨best, hbest, hroute⟩
          rw [hkept, Option.some.injEq, Prod.mk.injEq, Prod.mk.injEq] at hroute
          exact ⟨best, hbest, hroute.1.symm, (hops_of_installed _ _ hroute.2.1).symm,
            hroute.2.2.symm⟩
        · rintro ⟨best, hbest, hseq, hhops, hsender⟩
          refine ⟨best, hbest, ?_⟩
          rw [hkept, hseq, hhops, hsender]

end Requests

/-- Two neighbours pass on requests of 1.0.0.0, the second with a newer number. -/
def newerRequest : List Input :=
  [receive 0x03000000 (requestFor 5 1 0x09000000 0x01000000 7),
   receive 0x04000000 (requestFor 5 2 0x09000000 0x01000000 8)]

theorem best_request_kept_iff_newer :
    KeepsBest 0x01000000 (requestsOf 0x01000000 newerRequest) (run step relayAtBoot newerRequest) :=
  (best_request_kept_iff 0x01000000 relayAtBoot newerRequest rfl
    ⟨⟨⟨by decide, fun _ => by decide, by decide⟩, fun _ e he => by cases he⟩,
      ⟨⟨by decide, fun _ => by decide, by decide⟩, fun _ e he => by cases he; decide⟩, trivial⟩
    (by decide)).mpr
    ⟨by decide, ⟨0x04000000, 8, 0⟩, by decide, by decide⟩

/-- The second request has gone past the rollover. -/
def requestPastRollover : List Input :=
  [receive 0x03000000 (requestFor 5 1 0x09000000 0x01000000 0xFFFFFFFF),
   receive 0x04000000 (requestFor 5 2 0x09000000 0x01000000 1)]

/-- The route of the number before the rollover is kept. -/
theorem not_best_request_kept_pastRollover :
    (relayAtBoot.getRoutingEntry 0x01000000 = none ∧
      AllSteps step (fun n input => FeedsOffer (Input.requestOf 0x01000000) 0x01000000 n input ∧
        Unremembered 0x01000000 n input) relayAtBoot requestPastRollover ∧
      (∀ o ∈ requestsOf 0x01000000 requestPastRollover, InWindow 0xFFFFFFFF o.seq)) ∧
    ¬ KeepsBest 0x01000000 (requestsOf 0x01000000 requestPastRollover)
      (run step relayAtBoot requestPastRollover) := by
  refine ⟨⟨rfl, ⟨⟨⟨by decide, fun _ => by decide, by decide⟩, fun _ e he => by cases he⟩,
    ⟨⟨by decide, fun _ => by decide, by decide⟩, fun _ e he => by cases he; decide⟩, trivial⟩,
    by decide⟩, ?_⟩
  rintro ⟨o, ⟨before, after, _, hnewest, -, -⟩, hroute⟩
  have hkept : (run step relayAtBoot requestPastRollover).routeTo 0x01000000 =
      some (0xFFFFFFFF, 1, 0x03000000) := rfl
  rw [hkept, Option.some.injEq, Prod.mk.injEq] at hroute
  have hold := hnewest ⟨0x04000000, 1, 0⟩ (List.mem_cons_of_mem _ List.mem_cons_self)
  rw [← hroute.1] at hold
  exact absurd hold (by decide)

end OpenManet
