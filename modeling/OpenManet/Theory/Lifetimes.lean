import OpenManet.Theory.Freshness
import OpenManet.Theory.Installing

/-!
# Lifetimes on Their Way

A node that answers from its table gives the reply the time its own entry has left,
in whole milliseconds, and the receiver counts them from its own clock. With the two
clocks equal the new deadline is the old one rounded down, so the copy of a route
should not outlive it.

Two things go wrong on the way. `subtract_time` tests the seconds before it borrows
one, so a deadline missed within the running second leaves a second less than none,
and that is some 49 days when it is converted to unsigned milliseconds. And a lifetime
of 0, which is what is left of anything below a millisecond, does not mean none to
`set_expiration_timer`: it leaves the deadline the entry had.

## Main definitions

* `Timespec.Proper`: The nanoseconds are those of one second at most.
* `JustMissed`, `wholeMsLeft`: A deadline and the clock.
* `heldDeadline`: The deadline that stays when the lifetime is 0.
* `AnswersFrom`: A node answers a request from an entry.
* `Op.AcceptsReply`: The update test of a reply succeeds.
* `RouteWithin`: The receiver's route ends no later than the sender's.

## Theorems

* `lifetime_missed`, `lifetime_left`: The lifetime of the answer.
* `reply_timeOut`: The deadline after a reply.
* `routeWithin_iff`: When the route of the receiver ends in time.
* `not_routeWithin_justMissed`: A route learned just after its end.
-/

namespace OpenManet

/-- The nanoseconds are those of one second at most, as the clock and
    `add_time_ms` have them. -/
def Timespec.Proper (t : Timespec) : Prop := 0 ≤ t.tvNsec ∧ t.tvNsec ≤ 1000000000

instance (t : Timespec) : Decidable t.Proper := inferInstanceAs (Decidable (_ ∧ _))

/-- The deadline lies in the running second and is past. -/
def JustMissed (now deadline : Timespec) : Prop :=
  deadline.tvSec = now.tvSec ∧ deadline.tvNsec < now.tvNsec

instance (now deadline : Timespec) : Decidable (JustMissed now deadline) :=
  inferInstanceAs (Decidable (_ ∧ _))

/-- The whole milliseconds until the deadline, none when it is past. -/
def wholeMsLeft (now deadline : Timespec) : Int := max 0 (deadline.nanos - now.nanos) / 1000000

/-! ### The lifetime of the answer -/

theorem convertTimespecToMs_toNat (t : Timespec) :
    ((convertTimespecToMs t).toNat : Int) =
      (t.tvSec * 1000 + t.tvNsec.tdiv 1000000) % 4294967296 := by
  unfold convertTimespecToMs toU32
  rw [← BitVec.ofInt_add, BitVec.toNat_ofInt]
  exact Int.toNat_of_nonneg (Int.emod_nonneg _ (by decide))

/-- The borrowed second turns into almost the whole range. -/
theorem lifetime_missed (now deadline : Timespec) (hnow : now.Proper) (hdeadline : deadline.Proper)
    (hmissed : JustMissed now deadline) :
    4294966296 ≤ (convertTimespecToMs (subtractTime now deadline)).toNat := by
  rcases hnow with ⟨-, hnow⟩
  rcases hdeadline with ⟨hdeadline, -⟩
  rcases hmissed with ⟨hsec, hnsec⟩
  have hleft : subtractTime now deadline =
      { tvSec := -1, tvNsec := deadline.tvNsec - now.tvNsec + 1000000000 } := by
    simp only [subtractTime, hsec, Int.sub_self]
    rw [if_neg (Int.lt_irrefl 0), if_pos (by omega)]
    rfl
  -- The nanoseconds are not negative any more, so they are divided downwards.
  have hms := convertTimespecToMs_toNat (subtractTime now deadline)
  have hborrowed : (deadline.tvNsec - now.tvNsec + 1000000000).tdiv 1000000 =
      (deadline.tvNsec - now.tvNsec + 1000000000) / 1000000 :=
    Int.tdiv_eq_ediv_of_nonneg (by omega)
  simp only [hleft, hborrowed] at hms
  rw [hleft]
  omega

/-- Otherwise the lifetime is the number of whole milliseconds left, as far as it fits. -/
theorem lifetime_left (now deadline : Timespec) (hnow : now.Proper) (hdeadline : deadline.Proper)
    (hmissed : ¬ JustMissed now deadline) :
    ((convertTimespecToMs (subtractTime now deadline)).toNat : Int) =
      wholeMsLeft now deadline % 4294967296 := by
  rcases hnow with ⟨hnow, hnow'⟩
  rcases hdeadline with ⟨hdeadline, hdeadline'⟩
  simp only [JustMissed, not_and, Int.not_lt] at hmissed
  rw [convertTimespecToMs_toNat]
  simp only [wholeMsLeft, Timespec.nanos, subtractTime]
  by_cases hpast : deadline.tvSec - now.tvSec < 0
  · -- A deadline of an earlier second leaves nothing.
    have hnone : max 0 (deadline.tvSec * 1000000000 + deadline.tvNsec -
        (now.tvSec * 1000000000 + now.tvNsec)) = 0 := by omega
    rw [if_pos hpast, hnone]
    rfl
  · rw [if_neg hpast]
    by_cases hborrow : deadline.tvNsec - now.tvNsec < 0
    · rw [if_pos hborrow]
      simp only []
      rw [Int.tdiv_eq_ediv_of_nonneg (by omega)]
      omega
    · rw [if_neg hborrow]
      simp only []
      rw [Int.tdiv_eq_ediv_of_nonneg (by omega)]
      omega

/-! ### The deadline after a reply -/

/-- The deadline that stays in the destination's slot when the lifetime is 0: the one
    the slot's entry had, or the previous hop's new one if it shares the slot. -/
def heldDeadline (now : Timespec) (s dest orig : U32) (n : Node) : Option Timespec :=
  if orig ≠ 0 ∧ slotOf dest = slotOf s then some (addTimeMs now (toU32 activeRouteTimeout))
  else (n.getRoutingEntry dest).map RoutingEntry.timeOut

/-- What a restarted timer leaves, from the old deadline if there was one. -/
def restarted (now : Timespec) (ms : U32) (held : Option Timespec) : Timespec :=
  if ms ≠ 0 then addTimeMs now ms else held.getD (addTimeMs now ms)

/-- The update test of a reply, hello or not, succeeds. -/
def Op.AcceptsReply : Op → Node → Prop
  | hello _ m new, n => ∃ e, n.getRoutingEntry m.destIp = some e ∧ takesHello m new e
  | forwardRoute _ _ m new, n =>
    ∃ e, n.getRoutingEntry m.destIp = some e ∧ (new = true ∨ fresherForward m e = true)
  | _, _ => False

theorem unmarked_timeOut : Unmarked RoutingEntry.timeOut := fun _ _ _ _ _ => rfl

/-- The section about the destination restarts the timer either way. -/
theorem forwardRoute_timeOut (env : Env) (s : U32) (m : RrepHeader) (n : Node) :
    ((forwardTarget env s m n).forwardRoute env s m (n.isNew m.destIp)).timeOut =
      restarted env.now m.lifetime ((n.getRoutingEntry m.destIp).map RoutingEntry.timeOut) := by
  have hset : ∀ (e : RoutingEntry) new, (e.forwardRoute env s m new).timeOut =
      if m.lifetime ≠ 0 then addTimeMs env.now m.lifetime else e.timeOut := by
    intro e new
    unfold RoutingEntry.forwardRoute
    split <;> rfl
  rw [hset]
  unfold restarted forwardTarget
  cases n.getRoutingEntry m.destIp <;> rfl

theorem hello_timeOut (env : Env) (s : U32) (m : RrepHeader) (n : Node)
    (htakes : takesHello m (n.isNew m.destIp) (forwardTarget env s m n)) :
    ((forwardTarget env s m n).hello env m (n.isNew m.destIp)).timeOut =
      restarted env.now m.lifetime ((n.getRoutingEntry m.destIp).map RoutingEntry.timeOut) := by
  have hset : ∀ (e : RoutingEntry) new, takesHello m new e → (e.hello env m new).timeOut =
      if m.lifetime ≠ 0 then addTimeMs env.now m.lifetime else e.timeOut := by
    intro e new h
    unfold RoutingEntry.hello
    split
    · rfl
    · rename_i hnot
      simp only [Bool.or_eq_true, decide_eq_true_eq, or_assoc] at hnot
      exact absurd h hnot
  rw [hset _ _ htakes]
  unfold restarted forwardTarget
  cases n.getRoutingEntry m.destIp <;> rfl

/-- A hello that is accepted passes its test with the entry it works on. -/
theorem recvHello_accepts (env : Env) (s : U32) (m : RrepHeader) (n : Node)
    (h : (recvHello env s m).Performs Op.apply Op.AcceptsReply n) :
    takesHello m (n.isNew m.destIp) (forwardTarget env s m n) := by
  rcases h with hcreate | ⟨e, he, htakes⟩ | hnone
  · exact absurd hcreate id
  · have hfound : ((Op.create env m.destIp m.destSeq .seqValid s (m.hopCount.setWidth 32)
        m.lifetime).apply n).getRoutingEntry m.destIp = some (forwardTarget env s m n) := by
      rw [Node.getRoutingEntry_eq, apply_slots]
      simp only [Op.effect, Effect.slot, freshEntry, if_true]
      rfl
    cases hfound.symm.trans he
    exact htakes
  · exact absurd hnone id

/-- Publishing the outcome of a search accepts nothing. -/
theorem recvRrep_performs (P : Op → Node → Prop) (hP : ∀ ip n, ¬ P (.searchFound ip) n)
    (env : Env) (s : U32) (m : RrepHeader) (n : Node)
    (h : (recvRrep env s m).Performs Op.apply P n) :
    Prog.Performs Op.apply P (if m.srcIp = 0 then recvHello env s (incrementHopRrep m)
      else previousHopSection env s m.destIp (installForwardRoute env s (incrementHopRrep m)))
      (afterPublish m n) := by
  simp only [recvRrep, publishFound, Prog.Performs] at h
  simp only [afterPublish, publishFound, Prog.exec]
  split at h
  · rename_i hpub
    rw [if_pos hpub]
    exact h.resolve_left (hP _ _)
  · rename_i hpub
    rw [if_neg hpub]
    exact h

/-- The deadline a reply leaves when it is accepted. -/
theorem reply_timeOut (env : Env) (s : U32) (m : RrepHeader) (n : Node)
    (haccepts : OpsInclude Op.AcceptsReply n { env := env, event := .control s (.rrep m) }) :
    ((step n { env := env, event := .control s (.rrep m) }).getRoutingEntry m.destIp).map
        RoutingEntry.timeOut =
      some (restarted env.now m.lifetime (heldDeadline env.now s m.destIp m.srcIp n)) := by
  have hperforms : s ≠ n.ipAddress ∧ (recvRrep env s m).Performs Op.apply Op.AcceptsReply n := by
    simp only [OpsInclude, Input.handler, incomingControlMessage, Prog.Performs] at haccepts
    split at haccepts
    · exact absurd haccepts id
    · exact ⟨‹_›, haccepts⟩
  have hstep : step n { env := env, event := .control s (.rrep m) } =
      ((recvRrep env s m).exec Op.apply n).1 := by
    rw [step_rrep, if_neg hperforms.1]
  have hpublish := afterPublish_entry RoutingEntry.timeOut unmarked_timeOut m n m.destIp
  have hdest : slotOf m.destIp = slotOf (incrementHopRrep m).destIp := rfl
  rw [hstep]
  by_cases hhello : m.srcIp = 0
  · have htakes := recvRrep_performs _ (fun _ _ => id) env s m n hperforms.2
    rw [if_pos hhello] at htakes
    rw [recvRrep_hello env s m n hhello, recvHello_entry, if_pos hdest, Option.map_some,
      hello_timeOut env s _ _ (recvHello_accepts env s _ _ htakes)]
    unfold heldDeadline
    rw [if_neg (fun hne => hne.1 hhello), ← hpublish]
    rfl
  · have hroute := installForwardRoute_entry RoutingEntry.timeOut unmarked_timeOut env s
      (incrementHopRrep m) (afterPreviousHop env s m.destIp (afterPublish m n)) m.destIp
    rw [if_pos hdest, forwardRoute_timeOut] at hroute
    rw [recvRrep_route env s m n hhello, hroute]
    -- A previous hop in the same slot has just got a new deadline.
    have hheld : ((afterPreviousHop env s m.destIp (afterPublish m n)).getRoutingEntry
        m.destIp).map RoutingEntry.timeOut = heldDeadline env.now s m.destIp m.srcIp n := by
      rw [afterPreviousHop_getRoutingEntry]
      unfold heldDeadline
      by_cases hslot : slotOf m.destIp = slotOf s
      · rw [if_pos hslot, if_pos ⟨hhello, hslot⟩]
        unfold previousHopEntry Node.isNew
        cases (afterPublish m n).getRoutingEntry s <;> rfl
      · rw [if_neg hslot, if_neg (fun h => hslot h.2)]
        exact hpublish
    exact congrArg (fun held => some (restarted env.now m.lifetime held)) hheld

/-! ### The answer -/

/-- The node answers the request from this entry for the destination. -/
def AnswersFrom (n : Node) (env : Env) (asker : U32) (m : RreqHeader) (e : RoutingEntry) : Prop :=
  OpsInclude (fun o n' => o = .sendUnicast asker (intermediateRrep env (incrementHopRreq m) e) ∧
    n'.getRoutingEntry m.destIp = some e) n { env := env, event := .control asker (.rreq m) }

/-- What follows the reverse route leaves the deadline of the entry answered from. -/
theorem answersFrom_timeOut (n : Node) (env : Env) (asker : U32) (m : RreqHeader)
    (e : RoutingEntry) (h : AnswersFrom n env asker m e) :
    ∃ e', (step n { env := env, event := .control asker (.rreq m) }).getRoutingEntry m.destIp =
      some e' ∧ e'.timeOut = e.timeOut := by
  let P : Op → Node → Prop := fun o n' =>
    o = .sendUnicast asker (intermediateRrep env (incrementHopRreq m) e) ∧
      n'.getRoutingEntry m.destIp = some e
  let d := atDecision env asker m n
  have hother : ∀ o n', ¬ o.SendsPacket → ¬ P o n' := by
    intro o n' hsilent hP
    rw [hP.1] at hsilent
    exact hsilent trivial
  have hself : asker ≠ n.ipAddress ∧ (recvRreq env asker m).Performs Op.apply P n := by
    simp only [AnswersFrom, OpsInclude, Input.handler, incomingControlMessage,
      Prog.Performs] at h
    split at h
    · exact absurd h id
    · exact ⟨‹_›, h⟩
  -- The previous-hop section sends nothing, so the answer comes after the reverse route.
  have hlater : ¬ dropped m (afterPreviousHop env asker m.srcIp n) ∧
      (afterReverseRoute env asker (incrementHopRreq m) d).Performs Op.apply P d := by
    rcases hself.2 with hcreate | hhop | hrest
    · exact absurd hcreate (hother _ _ id)
    · exact absurd hhop (hother _ _ id)
    · simp only [Prog.Performs] at hrest
      split at hrest
      · exact absurd hrest id
      · split at hrest
        · exact absurd hrest id
        · rename_i hown hseen
          refine ⟨fun hdrop => hdrop.elim hown hseen, ?_⟩
          rcases hrest with hcreate | hroute | hafter
          · exact absurd hcreate (hother _ _ id)
          · exact absurd hroute (hother _ _ id)
          · exact hafter
  have hstep : step n { env := env, event := .control asker (.rreq m) } =
      ((afterReverseRoute env asker (incrementHopRreq m) d).exec Op.apply d).1 := by
    rw [step_rreq, if_neg hself.1, recvRreq_new env asker m n hlater.1]
    rfl
  -- Up to the answer and after it the deadline is the one at the decision.
  have hfollows := afterReverseRoute_follows env asker (incrementHopRreq m) d d
  have hbefore := Prog.Meets.with_invariant
    (fun n' => (n'.getRoutingEntry m.destIp).map RoutingEntry.timeOut =
      (d.getRoutingEntry m.destIp).map RoutingEntry.timeOut)
    (fun o n' hn' ho => (apply_follows_entry _ unmarked_timeOut o ho n' m.destIp).trans hn')
    _ d rfl hfollows
  rcases Prog.exists_of_performs _ d hlater.2 hbefore with ⟨o, n', ⟨-, hfound⟩, -, hkept⟩
  have hend := follows_entry _ unmarked_timeOut _ d hfollows m.destIp
  rw [← hstep, ← hkept, hfound, Option.map_some, Option.map_eq_some_iff] at hend
  exact hend

/-! ### Both nodes -/

/-- The second node's route to the destination ends no later than the first one's,
    unless that is over already. -/
def RouteWithin (now : Timespec) (d : U32) (nI nR : Node) : Prop :=
  ∃ eI eR, nI.getRoutingEntry d = some eI ∧ nR.getRoutingEntry d = some eR ∧
    eR.timeOut.nanos ≤ max now.nanos eI.timeOut.nanos

theorem ms_pos (ms : U32) (h : ms ≠ 0) : 0 < ms.toNat := by
  refine Nat.pos_of_ne_zero (fun hzero => h ?_)
  exact BitVec.eq_of_toNat_eq hzero

/-- The restarted timer ends in time when the deadline is not just missed and, where
    no whole millisecond is left, the deadline that stays is in time. -/
theorem restarted_within_iff (now deadline : Timespec) (held : Option Timespec)
    (hnow : now.Proper) (hdeadline : deadline.Proper) :
    (restarted now (convertTimespecToMs (subtractTime now deadline)) held).nanos ≤
        max now.nanos deadline.nanos ↔
      ¬ JustMissed now deadline ∧ (wholeMsLeft now deadline % 4294967296 = 0 →
        ∀ t, held = some t → t.nanos ≤ max now.nanos deadline.nanos) := by
  by_cases hmissed : JustMissed now deadline
  · -- Some 49 days are added to the clock.
    have hms := lifetime_missed now deadline hnow hdeadline hmissed
    generalize convertTimespecToMs (subtractTime now deadline) = ms at hms
    have hne : ms ≠ 0 := by
      intro hzero
      rw [hzero] at hms
      exact absurd hms (by decide)
    refine ⟨fun hle => ?_, fun h => absurd hmissed h.1⟩
    rw [restarted, if_pos hne, addTimeMs_nanos] at hle
    have hpast : deadline.nanos < now.nanos := by
      rcases hmissed with ⟨hsec, hnsec⟩
      unfold Timespec.nanos
      omega
    omega
  · have hms := lifetime_left now deadline hnow hdeadline hmissed
    generalize convertTimespecToMs (subtractTime now deadline) = ms at hms
    by_cases hzero : ms = 0
    · rw [hzero] at hms
      have hnone : wholeMsLeft now deadline % 4294967296 = 0 := hms.symm
      rw [restarted, if_neg (not_not.mpr hzero)]
      cases held with
      | none =>
          have hclock : (none.getD (addTimeMs now ms)).nanos = now.nanos := by
            rw [Option.getD_none, addTimeMs_nanos, hzero]
            exact Int.add_zero _
          rw [hclock]
          exact ⟨fun _ => ⟨hmissed, fun _ t ht => absurd ht nofun⟩, fun _ => Int.le_max_left _ _⟩
      | some t =>
          rw [Option.getD_some]
          refine ⟨fun hle => ⟨hmissed, fun _ t' ht' => ?_⟩, fun h => h.2 hnone t rfl⟩
          rw [← Option.some.inj ht']
          exact hle
    · -- The milliseconds counted are no more than those left.
      have hpos := ms_pos ms hzero
      refine ⟨fun _ => ⟨hmissed, fun hnone => ?_⟩, fun _ => ?_⟩
      · omega
      · rw [restarted, if_pos hzero, addTimeMs_nanos]
        have hnonneg : 0 ≤ wholeMsLeft now deadline := by
          unfold wholeMsLeft
          omega
        have hle : (ms.toNat : Int) ≤ wholeMsLeft now deadline := by
          rw [hms]
          omega
        unfold wholeMsLeft at hle
        omega

/-- The route a node learns from another's answer, at one time of both clocks, ends no
    later than the other's exactly when the other's deadline is not missed within the
    running second and, where no whole millisecond is left of it, the deadline the
    learner has already is in time. -/
theorem routeWithin_iff (nI nR : Node) (env env' : Env) (asker : U32) (m : RreqHeader)
    (e : RoutingEntry) (rrep : RrepHeader) (beyond : List Byte) (hclock : env'.now = env.now)
    (hnow : env.now.Proper) (hdeadline : e.timeOut.Proper) (hanswers : AnswersFrom nI env asker m e)
    (hsent : intermediateRrep env (incrementHopRreq m) e = .rrep rrep beyond)
    (haccepts : OpsInclude Op.AcceptsReply nR
      { env := env', event := .control nI.ipAddress (.rrep rrep) }) :
    RouteWithin env.now m.destIp
        (step nI { env := env, event := .control asker (.rreq m) })
        (step nR { env := env', event := .control nI.ipAddress (.rrep rrep) }) ↔
      ¬ JustMissed env.now e.timeOut ∧ (wholeMsLeft env.now e.timeOut % 4294967296 = 0 →
        ∀ t, heldDeadline env.now nI.ipAddress m.destIp m.srcIp nR = some t →
          t.nanos ≤ max env.now.nanos e.timeOut.nanos) := by
  rcases answersFrom_timeOut nI env asker m e hanswers with ⟨eI, heI, htimeI⟩
  have hreply : rrep.destIp = m.destIp ∧ rrep.srcIp = m.srcIp ∧
      rrep.lifetime = convertTimespecToMs (subtractTime env.now e.timeOut) := by
    simp only [intermediateRrep, Packet.rrep.injEq] at hsent
    rw [← hsent.1]
    exact ⟨rfl, rfl, rfl⟩
  -- The learner restarts its timer with the whole milliseconds the answer carries.
  have hlearned := reply_timeOut env' nI.ipAddress rrep nR haccepts
  rw [hreply.1, hreply.2.1, hreply.2.2, hclock] at hlearned
  rcases Option.map_eq_some_iff.mp hlearned with ⟨eR, heR, htimeR⟩
  rw [← restarted_within_iff env.now e.timeOut _ hnow hdeadline, ← htimeR, ← htimeI]
  constructor
  · rintro ⟨eI', eR', heI', heR', hle⟩
    cases heI.symm.trans heI'
    cases heR.symm.trans heR'
    exact hle
  · exact fun hle => ⟨eI, eR, heI, heR, hle⟩

/-- A node that has a route to 3.0.0.0 until six seconds. -/
def holdsRoute : Node :=
  run step (Node.boot 0x02000000 0xFF000000 fun _ => 0)
    [receive 0x03000000 (replyAfter 0 0x03000000 7 0x02000000)]

/-- A node that knows nothing yet. -/
def learnsRoute : Node := Node.boot 0x01000000 0xFF000000 fun _ => 0

/-- Its request for 3.0.0.0. -/
def requestForRoute : RreqHeader :=
  { generateRreqMessage (rreqUnknown.setWidth 8) 1 0x03000000 0 0x01000000 1 with ttl := 1 }

/-- Clear surroundings at a time of the clock. -/
def Env.clearAt (sec nsec : Int) : Env := { Env.clear with now := { tvSec := sec, tvNsec := nsec } }

/-- Three seconds before the end the learned route ends in time. -/
theorem routeWithin_iff_inTime :
    ∃ e rrep beyond, AnswersFrom holdsRoute (.clearAt 3 0) 0x01000000 requestForRoute e ∧
      intermediateRrep (.clearAt 3 0) (incrementHopRreq requestForRoute) e = .rrep rrep beyond ∧
      RouteWithin (Env.clearAt 3 0).now 0x03000000
        (step holdsRoute
          { env := .clearAt 3 0, event := .control 0x01000000 (.rreq requestForRoute) })
        (step learnsRoute { env := .clearAt 3 0, event := .control 0x02000000 (.rrep rrep) }) := by
  -- The answer is the sixth operation of the one, the route section the fourth of the other.
  refine ⟨_, _, _, Or.inr (Or.inr (Or.inr (Or.inr (Or.inr (Or.inl ⟨rfl, rfl⟩))))), rfl, ?_⟩
  exact (routeWithin_iff holdsRoute learnsRoute (.clearAt 3 0) (.clearAt 3 0) 0x01000000
    requestForRoute _ _ _ rfl (by decide) (by decide)
    (Or.inr (Or.inr (Or.inr (Or.inr (Or.inr (Or.inl ⟨rfl, rfl⟩)))))) rfl
    (Or.inr (Or.inr (Or.inr (Or.inl ⟨_, rfl, Or.inl rfl⟩))))).mpr
    ⟨by decide, fun hnone => absurd hnone (by decide)⟩

/-- A nanosecond after the end the route is learned for 49 days. -/
theorem not_routeWithin_justMissed :
    ¬ ∀ (nI nR : Node) (env env' : Env) (asker : U32) (m : RreqHeader) (e : RoutingEntry)
        (rrep : RrepHeader) (beyond : List Byte),
      env'.now = env.now → env.now.Proper → e.timeOut.Proper → AnswersFrom nI env asker m e →
      intermediateRrep env (incrementHopRreq m) e = .rrep rrep beyond →
      OpsInclude Op.AcceptsReply nR
        { env := env', event := .control nI.ipAddress (.rrep rrep) } →
      RouteWithin env.now m.destIp
        (step nI { env := env, event := .control asker (.rreq m) })
        (step nR { env := env', event := .control nI.ipAddress (.rrep rrep) }) := by
  intro h
  rcases h holdsRoute learnsRoute (.clearAt 6 1) (.clearAt 6 1) 0x01000000 requestForRoute _ _ _
    rfl (by decide) (by decide) (Or.inr (Or.inr (Or.inr (Or.inr (Or.inr (Or.inl ⟨rfl, rfl⟩))))))
    rfl (Or.inr (Or.inr (Or.inr (Or.inl ⟨_, rfl, Or.inl rfl⟩)))) with ⟨eI, eR, heI, heR, hle⟩
  cases heI
  cases heR
  exact absurd hle (by decide)

end OpenManet
