import OpenManet.Theory.Freshness
import OpenManet.Theory.Installing
import OpenManet.Theory.KernelRoutes

/-!
# Copies at the Destination

A request floods the network, so its destination gets it more than once. The
destination looks at a repeated copy again if that came by a shorter way than the
reverse route it has, and then replies once more.

The duplicate check compares the stored hop count with the one in the message, which
is incremented only afterwards. A copy that has come just as far as the reverse route
leads is therefore taken for a shorter one: it does not change the route, since the
update test compares both after the increment, but it is answered, and the node's own
number grows.

Two more things are not behind the check. The section about the previous hop comes
before it and points the kernel's route to the originator at the originator if the copy
comes from there. And the update test also looks at the sequence number, so a copy may
be answered without its shorter way being kept.

## Main definitions

* `CopyOf`: A copy of one request, at its destination.
* `OnCopy`: A condition on the copies only.
* `Reacts`: The node replies, or its number or the kernel's route to the originator
  changes.
* `ReactsToShorter`: It does so only to a copy by a strictly shorter way.
* `NotAsLong`: The condition on a copy for that.
* `HopsKeptLow`: The condition for a shorter way to be kept.
* `answeredHops`: The hop counts of the copies that are answered.

## Theorems

* `copy_dropped`, `copy_answered`: What a copy does on either side of the check.
* `reactsToShorter_iff`: One copy.
* `answeredHops_below`: The answered copies are shorter than the stored route.
* `repeated_copies`: A run of copies.
-/

namespace OpenManet

/-! ### Copies and reactions -/

section Copies

variable (srcIp rreqId srcSeq : U32)

/-- A copy of the request of this originator with this id and number, from a neighbour of
    its destination. -/
def CopyOf (n : Node) (s : U32) (m : RreqHeader) : Prop :=
  s ≠ n.ipAddress ∧ m.destIp = n.ipAddress ∧ m.srcIp = srcIp ∧ m.rreqId = rreqId ∧
    m.srcSeq = srcSeq ∧ m.hopCount.toNat < 255

instance (n : Node) (s : U32) (m : RreqHeader) : Decidable (CopyOf srcIp rreqId srcSeq n s m) :=
  inferInstanceAs (Decidable (_ ∧ _ ∧ _ ∧ _ ∧ _ ∧ _))

end Copies

def Packet.isRrep : Packet → Bool
  | rrep _ _ => true
  | _ => false

/-- The step sends a reply. -/
def StepReplies (n : Node) (input : Input) : Prop :=
  ((stepCalls n input).filterMap ApiCall.packet).any Packet.isRrep = true

instance (n : Node) (input : Input) : Decidable (StepReplies n input) :=
  inferInstanceAs (Decidable (_ = true))

/-- The step sends a reply, changes the node's number, or changes the kernel's route. -/
def Reacts (srcIp : U32) (n : Node) (input : Input) : Prop :=
  StepReplies n input ∨ (step n input).sequenceNum ≠ n.sequenceNum ∨
    kernelRoute (step n input).log srcIp ≠ kernelRoute n.log srcIp

instance (srcIp : U32) (n : Node) (input : Input) : Decidable (Reacts srcIp n input) :=
  inferInstanceAs (Decidable (_ ∨ _ ∨ _))

section Conditions

variable (srcIp rreqId srcSeq : U32) (n : Node) (input : Input)

/-- If the input is a copy, it meets the condition. -/
def OnCopy (P : U32 → RreqHeader → Prop) : Prop :=
  ∀ s m, input.event = .control s (.rreq m) → CopyOf srcIp rreqId srcSeq n s m → P s m

instance (P : U32 → RreqHeader → Prop) [∀ s m, Decidable (P s m)] :
    Decidable (OnCopy srcIp rreqId srcSeq n input P) :=
  match hevent : input.event with
  | .control s (.rreq m) =>
    decidable_of_iff (CopyOf srcIp rreqId srcSeq n s m → P s m)
      ⟨fun h s' m' heq => by
        rw [hevent, Event.control.injEq, ControlMessage.rreq.injEq] at heq
        rw [← heq.1, ← heq.2]
        exact h, fun h => h s m hevent⟩
  | .control _ (.rrep _) | .control _ (.rerr _ _) | .data _ _ | .outgoing _ | .forwarded _ _
  | .search _ | .wait _ | .expire _ | .rreqIdExpire _ | .hello =>
    isTrue fun _ _ heq => nomatch hevent.symm.trans heq

/-- A reaction to a copy means that its way is strictly shorter than the stored route. -/
def ReactsToShorter : Prop :=
  OnCopy srcIp rreqId srcSeq n input fun _ m => Reacts srcIp n input →
    ∃ e, n.getRoutingEntry srcIp = some e ∧ m.hopCount.toNat + 1 < e.hopCount.toNat

/-- The copy has not come exactly as far as the stored route leads, and one that has come
    farther is not from the originator itself, unless the kernel's route leads there. A
    node's own request is dropped in any case. -/
def NotAsLong : Prop :=
  OnCopy srcIp rreqId srcSeq n input fun s m => srcIp = n.ipAddress ∨
    ∀ e, n.getRoutingEntry srcIp = some e →
      m.hopCount.toNat + 1 ≠ e.hopCount.toNat ∧
        (e.hopCount.toNat ≤ m.hopCount.toNat → s = srcIp → kernelRoute n.log srcIp = some srcIp)

instance : Decidable (NotAsLong srcIp rreqId srcSeq n input) :=
  inferInstanceAs (Decidable (OnCopy srcIp rreqId srcSeq n input _))

/-- A copy by a shorter way does not meet a larger valid number, and what is no copy does
    not raise the stored hop count. -/
def HopsKeptLow : Prop :=
  (OnCopy srcIp rreqId srcSeq n input fun _ m => ∀ e, n.getRoutingEntry srcIp = some e →
    ¬ (e.seqValid = .seqValid ∧ srcSeq < e.destSeq ∧
      m.hopCount.toNat + 1 < e.hopCount.toNat)) ∧
  ((OnCopy srcIp rreqId srcSeq n input fun _ _ => False) →
    ∀ e, n.getRoutingEntry srcIp = some e →
      ∀ e', (step n input).getRoutingEntry srcIp = some e' →
        e'.hopCount.toNat ≤ e.hopCount.toNat)

instance : Decidable (HopsKeptLow srcIp rreqId srcSeq n input) :=
  inferInstanceAs (Decidable ((OnCopy srcIp rreqId srcSeq n input _) ∧ (_ → _)))

end Conditions

/-- The hop count of the copy this step answers, if it does. -/
def answeredNow (srcIp rreqId srcSeq : U32) (n : Node) (input : Input) : Option Nat :=
  match input.event with
  | .control s (.rreq m) =>
    if CopyOf srcIp rreqId srcSeq n s m ∧ StepReplies n input then some m.hopCount.toNat else none
  | _ => none

/-- The hop counts of the copies that are answered in the course of a run. -/
def answeredHops (srcIp rreqId srcSeq : U32) : Node → List Input → List Nat
  | _, [] => []
  | n, input :: rest =>
    (answeredNow srcIp rreqId srcSeq n input).toList ++
      answeredHops srcIp rreqId srcSeq (step n input) rest

theorem answeredNow_some (srcIp rreqId srcSeq : U32) (n : Node) (input : Input) (h : Nat)
    (hnow : answeredNow srcIp rreqId srcSeq n input = some h) :
    ∃ s m, input.event = .control s (.rreq m) ∧ CopyOf srcIp rreqId srcSeq n s m ∧
      StepReplies n input ∧ m.hopCount.toNat = h := by
  unfold answeredNow at hnow
  split at hnow
  · rename_i s m hevent
    by_cases hanswers : CopyOf srcIp rreqId srcSeq n s m ∧ StepReplies n input
    · rw [if_pos hanswers, Option.some.injEq] at hnow
      exact ⟨s, m, hevent, hanswers.1, hanswers.2, hnow⟩
    · rw [if_neg hanswers] at hnow
      cases hnow
  · cases hnow

theorem answeredNow_none (srcIp rreqId srcSeq : U32) (n : Node) (input : Input) (s : U32)
    (m : RreqHeader) (hevent : input.event = .control s (.rreq m))
    (hcopy : CopyOf srcIp rreqId srcSeq n s m)
    (hnow : answeredNow srcIp rreqId srcSeq n input = none) : ¬ StepReplies n input := by
  intro hsends
  simp only [answeredNow, hevent] at hnow
  rw [if_pos ⟨hcopy, hsends⟩] at hnow
  cases hnow

/-! ### One copy -/

section OneCopy

variable (env : Env) (s : U32) (m : RreqHeader) (n : Node)

/-- A copy that is dropped has gone through the previous-hop section and nothing else. -/
theorem copy_dropped (hother : s ≠ n.ipAddress)
    (hdrop : dropped m (afterPreviousHop env s m.srcIp n)) :
    step n { env := env, event := .control s (.rreq m) } = afterPreviousHop env s m.srcIp n ∧
      stepCalls n { env := env, event := .control s (.rreq m) } =
        [.addUnicastRoutingEntry s s] := by
  have hstep : step n { env := env, event := .control s (.rreq m) } =
      afterPreviousHop env s m.srcIp n := by
    rw [step_rreq, if_neg hother, recvRreq_dropped env s m n hdrop]
  refine ⟨hstep, stepCalls_of_append n _ _ ?_⟩
  rw [hstep, afterPreviousHop_log]
  rfl

/-- A dropped copy changes nothing but the kernel's route to its sender. -/
theorem reacts_dropped_iff (hother : s ≠ n.ipAddress)
    (hdrop : dropped m (afterPreviousHop env s m.srcIp n)) (srcIp : U32) :
    Reacts srcIp n { env := env, event := .control s (.rreq m) } ↔
      s = srcIp ∧ kernelRoute n.log srcIp ≠ some srcIp := by
  rcases copy_dropped env s m n hother hdrop with ⟨hstep, hcalls⟩
  have hsilent : ¬ StepReplies n { env := env, event := .control s (.rreq m) } := by
    unfold StepReplies
    rw [hcalls]
    exact Bool.false_ne_true
  have hseq : (afterPreviousHop env s m.srcIp n).sequenceNum = n.sequenceNum := by
    unfold afterPreviousHop
    simp only [apply_sequenceNum, Op.ownNumber]
  unfold Reacts
  rw [hstep, hseq, afterPreviousHop_log, kernelRoute_add]
  by_cases hsame : srcIp = s
  · rw [if_pos hsame, hsame]
    constructor
    · intro h
      exact ⟨rfl, ((h.resolve_left hsilent).resolve_left (fun hne => hne rfl)).symm⟩
    · exact fun h => Or.inr (Or.inr h.2.symm)
  · rw [if_neg hsame]
    exact iff_of_false (fun h => h.elim hsilent (fun h => h.elim (· rfl) (· rfl)))
      (fun h => hsame h.1.symm)

/-- A copy past the check is answered by its destination. -/
theorem copy_answered (hother : s ≠ n.ipAddress) (hdest : m.destIp = n.ipAddress)
    (hnew : ¬ dropped m (afterPreviousHop env s m.srcIp n)) :
    StepReplies n { env := env, event := .control s (.rreq m) } := by
  let d := atDecision env s m n
  have hown : d.ipAddress = (incrementHopRreq m).destIp := by
    rw [atDecision_ipAddress]
    exact hdest.symm
  have hstep : step n { env := env, event := .control s (.rreq m) } =
      ((afterReverseRoute env s (incrementHopRreq m) d).exec Op.apply d).1 := by
    rw [step_rreq, if_neg hother, recvRreq_new env s m n hnew]
    rfl
  rcases sendRrepDestination_log env s (incrementHopRreq m)
    ((Op.activate m.srcIp).apply d) with ⟨rrep, hlog, -⟩
  have hsent : (step n { env := env, event := .control s (.rreq m) }).log =
      .sendUnicast s (.rrep rrep []) :: ((Op.activate m.srcIp).apply d).log := by
    rw [hstep, afterReverseRoute, if_pos hown]
    exact hlog
  -- What it sends is this reply and nothing before it.
  have hpackets := congrArg (List.filterMap ApiCall.packet) (log_step n
    { env := env, event := .control s (.rreq m) })
  rw [hsent, apply_log, List.filterMap_append, ← atDecision_sends env s m n] at hpackets
  have hcut : [Packet.rrep rrep []] ++ d.log.filterMap ApiCall.packet =
      (stepCalls n { env := env, event := .control s (.rreq m) }).filterMap ApiCall.packet ++
        d.log.filterMap ApiCall.packet := hpackets
  unfold StepReplies
  rw [← List.append_cancel_right hcut]
  rfl

/-- What the entry of the originator holds after a copy past the check. -/
theorem copy_new_entry {α : Type} (get : RoutingEntry → α) (hget : Unmarked get)
    (hother : s ≠ n.ipAddress) (hnew : ¬ dropped m (afterPreviousHop env s m.srcIp n)) :
    ((step n { env := env, event := .control s (.rreq m) }).getRoutingEntry m.srcIp).map get =
      some (get ((reverseTarget env s (incrementHopRreq m)
        (afterPreviousHop env s m.srcIp n)).reverseRoute env s (incrementHopRreq m)
          ((afterPreviousHop env s m.srcIp n).isNew m.srcIp))) := by
  have hsrc : slotOf m.srcIp = slotOf (incrementHopRreq m).srcIp := rfl
  rw [step_rreq, if_neg hother, recvRreq_new env s m n hnew, recvNewRreq_entry get hget,
    if_pos hsrc]
  rfl

end OneCopy

/-! ### A remembered request -/

/-- The request is the node's own or one it remembers. -/
def Known (srcIp rreqId : U32) (n : Node) : Prop :=
  srcIp = n.ipAddress ∨ Remembers srcIp rreqId n

/-- The duplicate check at the destination of a remembered request. -/
theorem dropped_iff_of_remembers (env : Env) (s : U32) (m : RreqHeader) (n : Node)
    (e : RoutingEntry) (he : n.getRoutingEntry m.srcIp = some e) (hid : e.rreqId = m.rreqId)
    (hsrc : m.srcIp ≠ n.ipAddress) (hdest : m.destIp = n.ipAddress) :
    dropped m (afterPreviousHop env s m.srcIp n) ↔ e.hopCount.toNat ≤ m.hopCount.toNat := by
  rcases afterPreviousHop_kept env s m.srcIp n m.srcIp e he with ⟨e', he', hsame⟩
  have hhops : e.hopCount ≤ m.hopCount.setWidth 32 ↔ e.hopCount.toNat ≤ m.hopCount.toNat := by
    have hlt := m.hopCount.isLt
    rw [BitVec.le_def, BitVec.toNat_setWidth, Nat.mod_eq_of_lt (by omega)]
  unfold dropped
  rw [he', Option.any_some, afterPreviousHop_ipAddress, hsame.isDuplicate_eq, ← hhops]
  unfold isDuplicate
  rw [if_neg (fun h => h.2 hdest.symm)]
  constructor
  · intro h
    have hdup := h.resolve_left hsrc
    split at hdup
    · rename_i hshort
      exact hshort.2.2
    · exact absurd hdup Bool.false_ne_true
  · intro hle
    exact Or.inr (if_pos ⟨hid, hdest.symm, hle⟩)

/-- The first copy makes the request known. -/
theorem known_of_copy (srcIp rreqId srcSeq : U32) (n : Node) (env : Env) (s : U32) (m : RreqHeader)
    (hcopy : CopyOf srcIp rreqId srcSeq n s m) :
    Known srcIp rreqId (step n { env := env, event := .control s (.rreq m) }) := by
  rcases hcopy with ⟨hother, hdest, rfl, rfl, -, -⟩
  unfold Known
  rw [step_ipAddress]
  by_cases hdrop : dropped m (afterPreviousHop env s m.srcIp n)
  · rw [(copy_dropped env s m n hother hdrop).1]
    by_cases hown : m.srcIp = n.ipAddress
    · exact Or.inl hown
    · -- It is dropped because the entry holds its id already.
      refine Or.inr (dropped_holds m _ hdrop ?_)
      rw [afterPreviousHop_ipAddress]
      exact hown
  · rw [step_rreq, if_neg hother, recvRreq_new env s m n hdrop]
    exact Or.inr (recvNewRreq_remembers env s (incrementHopRreq m) _)

theorem known_step (srcIp rreqId : U32) (n : Node) (input : Input)
    (hkept : OpsMeet (EntryStays srcIp) n input ∧ OpsMeet (IdStays srcIp rreqId) n input)
    (h : Known srcIp rreqId n) : Known srcIp rreqId (step n input) := by
  rcases h with hown | hremembers
  · exact Or.inl (hown.trans (step_ipAddress n input).symm)
  · exact Or.inr (step_remembers srcIp rreqId n input hkept.1 hkept.2 hremembers)

/-- A copy of a known request is reacted to rightly when it is not just as long. -/
theorem reactsToShorter_iff (srcIp rreqId srcSeq : U32) (n : Node) (input : Input)
    (hknown : Known srcIp rreqId n) :
    ReactsToShorter srcIp rreqId srcSeq n input ↔ NotAsLong srcIp rreqId srcSeq n input := by
  rcases input with ⟨env, event⟩
  refine forall_congr' fun s => forall_congr' fun m => forall_congr' fun hevent =>
    forall_congr' fun hcopy => ?_
  cases hevent
  rcases hcopy with ⟨hother, hdest, rfl, rfl, -, hhops⟩
  by_cases hown : m.srcIp = n.ipAddress
  · -- A node drops its own request, and the sender is another node.
    have hdrop : dropped m (afterPreviousHop env s m.srcIp n) :=
      Or.inl (hown.trans (afterPreviousHop_ipAddress env s m.srcIp n).symm)
    rw [reacts_dropped_iff env s m n hother hdrop]
    exact iff_of_true (fun h => absurd (h.1.trans hown) hother) (Or.inl hown)
  · rcases hknown.resolve_left hown with ⟨e, he, hid⟩
    have hdrop := dropped_iff_of_remembers env s m n e he hid hown hdest
    simp only [he, Option.some.injEq, exists_eq_left', forall_eq']
    by_cases hlong : e.hopCount.toNat ≤ m.hopCount.toNat
    · rw [reacts_dropped_iff env s m n hother (hdrop.mpr hlong)]
      constructor
      · intro h
        refine Or.inr ⟨by omega, fun _ hsrc => ?_⟩
        by_contra hroute
        have hshorter := h ⟨hsrc, hroute⟩
        omega
      · rintro hcond ⟨hsrc, hroute⟩
        exact absurd ((hcond.resolve_left hown).2 hlong hsrc) hroute
    · have hreacts : Reacts m.srcIp n { env := env, event := .control s (.rreq m) } :=
        Or.inl (copy_answered env s m n hother hdest (fun h => hlong (hdrop.mp h)))
      constructor
      · intro h
        have hshorter := h hreacts
        exact Or.inr ⟨by omega, fun hle => absurd hle hlong⟩
      · intro hcond _
        have hne := (hcond.resolve_left hown).1
        omega

/-! ### A run of copies -/

/-- A request is refused for a larger valid number, or an equal one and a way that is
    not longer. -/
theorem refused_of_not_fresher (m : RreqHeader) (e : RoutingEntry)
    (h : ¬ fresherReverse m e = true) :
    e.seqValid = .seqValid ∧ (m.srcSeq < e.destSeq ∨
      e.hopCount.toNat ≤ (m.hopCount.setWidth 32).toNat) := by
  simp only [fresherReverse, Bool.or_eq_true, Bool.and_eq_true, decide_eq_true_eq, not_or,
    not_and, BitVec.lt_def] at h
  rcases h with ⟨⟨hle, hseq⟩, hequal⟩
  constructor
  · cases hvalid : e.seqValid with
    | seqValid => rfl
    | seqInvalid => exact absurd hvalid hseq
  · by_cases hsame : m.srcSeq = e.destSeq
    · exact Or.inr (Nat.le_of_not_lt (hequal hsame))
    · have hne : m.srcSeq.toNat ≠ e.destSeq.toNat := fun heq => hsame (BitVec.eq_of_toNat_eq heq)
      exact Or.inl (BitVec.lt_def.mpr (by omega))

/-- A copy past the check leaves no more hops stored than its own way has, unless it
    meets a larger number. -/
theorem copy_hops (env : Env) (s : U32) (m : RreqHeader) (n : Node) (hother : s ≠ n.ipAddress)
    (hnew : ¬ dropped m (afterPreviousHop env s m.srcIp n)) (hhops : m.hopCount.toNat < 255)
    (hlow : ∀ e, n.getRoutingEntry m.srcIp = some e →
      ¬ (e.seqValid = .seqValid ∧ m.srcSeq < e.destSeq ∧
        m.hopCount.toNat + 1 < e.hopCount.toNat)) :
    ∃ e, (step n { env := env, event := .control s (.rreq m) }).getRoutingEntry m.srcIp = some e ∧
      e.hopCount.toNat ≤ m.hopCount.toNat + 1 := by
  have hentry := copy_new_entry env s m n RoutingEntry.hopCount (fun _ _ _ _ _ => rfl) hother hnew
  rcases Option.map_eq_some_iff.mp hentry with ⟨e, he, hcount⟩
  refine ⟨e, he, ?_⟩
  rw [hcount]
  have hown : ((incrementHopRreq m).hopCount.setWidth 32).toNat = m.hopCount.toNat + 1 := by
    have hone : (1 : Byte).toNat = 1 := rfl
    have hsucc : (incrementHopRreq m).hopCount.toNat = m.hopCount.toNat + 1 := by
      rw [incrementHopRreq, BitVec.toNat_add, hone]
      exact Nat.mod_eq_of_lt (by omega)
    rw [BitVec.toNat_setWidth, hsucc]
    exact Nat.mod_eq_of_lt (by omega)
  generalize hnew' : (afterPreviousHop env s m.srcIp n).isNew m.srcIp = new
  generalize htarget : reverseTarget env s (incrementHopRreq m)
    (afterPreviousHop env s m.srcIp n) = target
  by_cases htaken : new = true ∨ fresherReverse (incrementHopRreq m) target = true
  · rcases reverseRoute_accepted env s new target (incrementHopRreq m) htaken with ⟨t, ht⟩
    rw [ht]
    exact Nat.le_of_eq hown
  · rcases reverseRoute_refused env s new target (incrementHopRreq m) htaken with ⟨t, ht⟩
    rw [ht]
    rcases not_or.mp htaken with ⟨hold, hrefused⟩
    rcases refused_of_not_fresher _ target hrefused with ⟨hvalid, hless⟩
    have hfound : (afterPreviousHop env s m.srcIp n).getRoutingEntry m.srcIp = some target := by
      rw [← hnew', Node.isNew, Option.isNone_iff_eq_none] at hold
      rcases Option.ne_none_iff_exists'.mp hold with ⟨e', he'⟩
      have hsame : reverseTarget env s (incrementHopRreq m)
          (afterPreviousHop env s m.srcIp n) = e' := by
        unfold reverseTarget
        rw [show (incrementHopRreq m).srcIp = m.srcIp from rfl, he', Option.getD_some]
      rw [he', ← hsame, htarget]
    -- A refused copy has met an entry with a valid number, so not one just made.
    rcases afterPreviousHop_found env s m.srcIp n m.srcIp target hfound
      with ⟨e₀, he₀, hroute⟩ | ⟨-, -, -, -, hinvalid⟩
    · rcases hless with hless | hless
      · have hshorter := hlow e₀ he₀
        rw [← hroute.seqValid, ← hroute.destSeq, ← hroute.hopCount] at hshorter
        exact Nat.le_of_not_lt (fun hlt => hshorter ⟨hvalid, hless, hlt⟩)
      · rw [hown] at hless
        exact hless
    · cases hinvalid.symm.trans hvalid

/-- A node does not answer its own request. -/
theorem answeredNow_own (srcIp rreqId srcSeq : U32) (n : Node) (input : Input)
    (hown : srcIp = n.ipAddress) : answeredNow srcIp rreqId srcSeq n input = none := by
  cases hnow : answeredNow srcIp rreqId srcSeq n input with
  | none => rfl
  | some h =>
      rcases answeredNow_some srcIp rreqId srcSeq n input h hnow
        with ⟨s, m, hevent, hcopy, hsends, -⟩
      rcases input with ⟨env, event⟩
      cases hevent
      rcases hcopy with ⟨hother, -, hsrc, -⟩
      have hdrop : dropped m (afterPreviousHop env s m.srcIp n) :=
        Or.inl ((hsrc.trans hown).trans (afterPreviousHop_ipAddress env s m.srcIp n).symm)
      unfold StepReplies at hsends
      rw [(copy_dropped env s m n hother hdrop).2] at hsends
      exact absurd hsends Bool.false_ne_true

theorem answeredHops_own (srcIp rreqId srcSeq : U32) (n : Node) (inputs : List Input)
    (hown : srcIp = n.ipAddress) : answeredHops srcIp rreqId srcSeq n inputs = [] := by
  induction inputs generalizing n with
  | nil => rfl
  | cons input rest ih =>
      rw [answeredHops, answeredNow_own srcIp rreqId srcSeq n input hown,
        ih (step n input) (hown.trans (step_ipAddress n input).symm)]
      rfl

/-- An answered copy leaves no more hops stored than its own way has. -/
theorem answered_hops (srcIp rreqId srcSeq : U32) (n : Node) (input : Input) (h : Nat)
    (hnow : answeredNow srcIp rreqId srcSeq n input = some h)
    (hlow : HopsKeptLow srcIp rreqId srcSeq n input) :
    ∃ e, (step n input).getRoutingEntry srcIp = some e ∧ e.hopCount.toNat ≤ h + 1 := by
  rcases answeredNow_some srcIp rreqId srcSeq n input h hnow with ⟨s, m, hevent, hcopy, hsends, rfl⟩
  have hbound := hlow.1 s m hevent hcopy
  rcases input with ⟨env, event⟩
  cases hevent
  rcases hcopy with ⟨hother, -, rfl, -, rfl, hhops⟩
  refine copy_hops env s m n hother (fun hdrop => ?_) hhops hbound
  unfold StepReplies at hsends
  rw [(copy_dropped env s m n hother hdrop).2] at hsends
  exact absurd hsends Bool.false_ne_true

/-- Whatever is not answered does not raise the stored hop count. -/
theorem unanswered_hops (srcIp rreqId srcSeq : U32) (n : Node) (input : Input)
    (hnow : answeredNow srcIp rreqId srcSeq n input = none)
    (hlow : HopsKeptLow srcIp rreqId srcSeq n input) (e e' : RoutingEntry)
    (he : n.getRoutingEntry srcIp = some e)
    (he' : (step n input).getRoutingEntry srcIp = some e') :
    e'.hopCount.toNat ≤ e.hopCount.toNat := by
  by_cases hcopy : ∃ s m, input.event = .control s (.rreq m) ∧ CopyOf srcIp rreqId srcSeq n s m
  · rcases hcopy with ⟨s, m, hevent, hcopy⟩
    have hsilent := answeredNow_none srcIp rreqId srcSeq n input s m hevent hcopy hnow
    rcases input with ⟨env, event⟩
    cases hevent
    rcases hcopy with ⟨hother, hdest, rfl, -⟩
    -- A copy without an answer is dropped, and only the previous hop's section runs.
    have hdrop : dropped m (afterPreviousHop env s m.srcIp n) := by
      by_contra hnew
      exact hsilent (copy_answered env s m n hother hdest hnew)
    rw [(copy_dropped env s m n hother hdrop).1] at he'
    rcases afterPreviousHop_kept env s m.srcIp n m.srcIp e he with ⟨e'', he'', hsame⟩
    cases he'.symm.trans he''
    exact Nat.le_of_eq (congrArg BitVec.toNat hsame.hopCount)
  · exact hlow.2 (fun s m hevent hthis => hcopy ⟨s, m, hevent, hthis⟩) e he e' he'

/-- From a remembered request on, the hop counts of the answered copies decrease from
    below the stored one. -/
theorem answeredHops_below (srcIp rreqId srcSeq : U32) (n : Node) (inputs : List Input)
    (hremembers : Remembers srcIp rreqId n)
    (hentry : AllSteps step (OpsMeet (EntryStays srcIp)) n inputs)
    (hid : AllSteps step (OpsMeet (IdStays srcIp rreqId)) n inputs)
    (hshorter : AllSteps step (ReactsToShorter srcIp rreqId srcSeq) n inputs)
    (hlow : AllSteps step (HopsKeptLow srcIp rreqId srcSeq) n inputs) :
    (answeredHops srcIp rreqId srcSeq n inputs).Pairwise (fun h h' => h' < h) ∧
      ∀ h ∈ answeredHops srcIp rreqId srcSeq n inputs, ∀ e, n.getRoutingEntry srcIp = some e →
        h + 1 < e.hopCount.toNat := by
  induction inputs generalizing n with
  | nil => exact ⟨List.Pairwise.nil, nofun⟩
  | cons input rest ih =>
      have hthen := step_remembers srcIp rreqId n input hentry.1 hid.1 hremembers
      rcases ih (step n input) hthen hentry.2 hid.2 hshorter.2 hlow.2 with ⟨hdecreasing, hbelow⟩
      rw [answeredHops]
      cases hnow : answeredNow srcIp rreqId srcSeq n input with
      | none =>
          refine ⟨hdecreasing, fun h hmem e he => ?_⟩
          rcases hthen with ⟨e', he', -⟩
          have hle := unanswered_hops srcIp rreqId srcSeq n input hnow hlow.1 e e' he he'
          exact Nat.lt_of_lt_of_le (hbelow h hmem e' he') hle
      | some h₀ =>
          -- What is answered later is below what this copy leaves stored.
          rcases answered_hops srcIp rreqId srcSeq n input h₀ hnow hlow.1 with ⟨e', he', hle⟩
          rcases answeredNow_some srcIp rreqId srcSeq n input h₀ hnow
            with ⟨s, m, hevent, hcopy, hsends, rfl⟩
          rcases hshorter.1 s m hevent hcopy (Or.inl hsends) with ⟨e₀, he₀, hlt⟩
          refine ⟨List.pairwise_cons.mpr ⟨fun h hmem => ?_, hdecreasing⟩, fun h hmem e he => ?_⟩
          · have hnext := hbelow h hmem e' he'
            omega
          · cases he₀.symm.trans he
            rcases List.mem_cons.mp hmem with hfirst | hlater
            · rw [hfirst]
              exact hlt
            · have hnext := hbelow h hlater e' he'
              omega

/-- From a known request on, every copy is reacted to rightly exactly when none is just as
    long. -/
theorem reactsToShorter_run (srcIp rreqId srcSeq : U32) (n : Node) (inputs : List Input)
    (hknown : Known srcIp rreqId n)
    (hentry : AllSteps step (OpsMeet (EntryStays srcIp)) n inputs)
    (hid : AllSteps step (OpsMeet (IdStays srcIp rreqId)) n inputs) :
    AllSteps step (ReactsToShorter srcIp rreqId srcSeq) n inputs ↔
      AllSteps step (NotAsLong srcIp rreqId srcSeq) n inputs := by
  have hkept := (allSteps_and step _ _ _ _).mpr ⟨hentry, hid⟩
  have halways := AllSteps.with_invariant step _ (Known srcIp rreqId)
    (fun n' input h hstays => known_step srcIp rreqId n' input hstays h) _ inputs hknown hkept
  exact allSteps_iff step _ _ _ _ (AllSteps.imp step (fun n' input h =>
    reactsToShorter_iff srcIp rreqId srcSeq n' input h.2) _ _ halways)

/-- The first copy arrives in any state, and then the originator's entry stays and its id
    is neither forgotten nor replaced. Each later copy is reacted to only if its way is
    strictly shorter exactly when no copy is just as long; and if moreover shorter ways
    are kept, the hop counts of the answered copies decrease strictly. -/
theorem repeated_copies (srcIp rreqId srcSeq : U32) (n : Node) (first : Input) (s : U32)
    (m : RreqHeader) (hevent : first.event = .control s (.rreq m))
    (hcopy : CopyOf srcIp rreqId srcSeq n s m) (rest : List Input)
    (hentry : AllSteps step (OpsMeet (EntryStays srcIp)) (step n first) rest)
    (hid : AllSteps step (OpsMeet (IdStays srcIp rreqId)) (step n first) rest) :
    (AllSteps step (ReactsToShorter srcIp rreqId srcSeq) (step n first) rest ↔
        AllSteps step (NotAsLong srcIp rreqId srcSeq) (step n first) rest) ∧
      (AllSteps step (NotAsLong srcIp rreqId srcSeq) (step n first) rest →
        AllSteps step (HopsKeptLow srcIp rreqId srcSeq) n (first :: rest) →
        (answeredHops srcIp rreqId srcSeq n (first :: rest)).Pairwise (fun h h' => h' < h)) := by
  have hknown : Known srcIp rreqId (step n first) := by
    rcases first with ⟨env, event⟩
    cases hevent
    exact known_of_copy srcIp rreqId srcSeq n env s m hcopy
  have hiff := reactsToShorter_run srcIp rreqId srcSeq _ rest hknown hentry hid
  refine ⟨hiff, fun hnot hlow => ?_⟩
  -- Its own request the node never answers; another it remembers from now on.
  rcases hknown with hown | hremembers
  · rw [step_ipAddress] at hown
    rw [answeredHops_own srcIp rreqId srcSeq n _ hown]
    exact List.Pairwise.nil
  · rcases answeredHops_below srcIp rreqId srcSeq _ rest hremembers hentry hid (hiff.mpr hnot)
      hlow.2 with ⟨hdecreasing, hbelow⟩
    rw [answeredHops]
    cases hnow : answeredNow srcIp rreqId srcSeq n first with
    | none => exact hdecreasing
    | some h₀ =>
        refine List.pairwise_cons.mpr ⟨fun h hmem => ?_, hdecreasing⟩
        rcases answered_hops srcIp rreqId srcSeq n first h₀ hnow hlow.1 with ⟨e, he, hle⟩
        have hnext := hbelow h hmem e he
        omega

/-- A copy of a request of 1.0.0.0 for 2.0.0.0, over so many hops. -/
def copyOver (hops : Byte) : ControlMessage :=
  .rreq { generateRreqMessage (rreqUnknown.setWidth 8) 1 0x02000000 0 0x01000000 1 with
    ttl := 5, hopCount := hops }

/-- The destination at start-up. -/
def destinationAtBoot : Node := Node.boot 0x02000000 0xFFFFFFFF fun _ => 0

/-- After a copy over four hops one over one hop is answered and one over seven is not. -/
theorem repeated_copies_shorter :
    AllSteps step (ReactsToShorter 0x01000000 1 1)
        (step destinationAtBoot (receive 0x03000000 (copyOver 4)))
        [receive 0x04000000 (copyOver 1), receive 0x05000000 (copyOver 7)] ∧
      (answeredHops 0x01000000 1 1 destinationAtBoot
        [receive 0x03000000 (copyOver 4), receive 0x04000000 (copyOver 1),
          receive 0x05000000 (copyOver 7)]).Pairwise (fun h h' => h' < h) := by
  have h := repeated_copies 0x01000000 1 1 destinationAtBoot (receive 0x03000000 (copyOver 4))
    0x03000000 _ rfl (by decide)
    [receive 0x04000000 (copyOver 1), receive 0x05000000 (copyOver 7)] (by decide) (by decide)
  exact ⟨h.1.mpr (by decide), h.2 (by decide) (by decide)⟩

/-- After a copy over one hop another one over one hop is answered as well. -/
theorem not_repeated_copies_asLong :
    ¬ ∀ (srcIp rreqId srcSeq : U32) (n : Node) (first : Input) (s : U32) (m : RreqHeader),
      first.event = .control s (.rreq m) → CopyOf srcIp rreqId srcSeq n s m →
      ∀ rest : List Input,
      AllSteps step (OpsMeet (EntryStays srcIp)) (step n first) rest →
      AllSteps step (OpsMeet (IdStays srcIp rreqId)) (step n first) rest →
      AllSteps step (ReactsToShorter srcIp rreqId srcSeq) (step n first) rest := by
  intro h
  have hshorter := (h 0x01000000 1 1 destinationAtBoot (receive 0x03000000 (copyOver 1))
    0x03000000 _ rfl (by decide) [receive 0x04000000 (copyOver 1)] (by decide) (by decide)).1
  rcases hshorter 0x04000000 _ rfl (by decide) (by decide) with ⟨e, he, hlt⟩
  cases he
  exact absurd hlt (by decide)

end OpenManet
