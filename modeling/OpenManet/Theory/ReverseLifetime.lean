import OpenManet.Theory.Deadlines

/-!
# The Lifetime of a Reverse Route

A request that is taken up extends the reverse route to its originator: the entry is
to last until the time the request asks for, or until its old deadline if that is
later. The handler computes both as times to go, takes the larger one and restarts the
timer with it in milliseconds.

Four things go wrong on the way. From the seventy-first hop on the time asked for is
negative and is converted to unsigned milliseconds, which gives some 49 days.
`max_timespec` takes the first of two times with equal seconds whatever their
nanoseconds, since the division of their difference truncates to zero; so an entry
loses up to a second. A deadline missed within the running second is one a timer cannot
sleep until, and stays if the time asked for is zero. And milliseconds wrap.

Besides, the originator's entry may be the previous hop's as well, and the section
before has then replaced its deadline.

## Main definitions

* `askedMs`: The milliseconds a request asks for.
* `oldDeadline`: The deadline the originator's entry has before the request, or is made with.
* `ReverseLifeRight`: The entry ends at the later of the two times.
* `LifeKept`, `OverwrittenLifeKept`: The conditions, for a previous hop in another slot
  and in the same.

## Theorems

* `timer_ms`, `timer_ms_threeSeconds`: The milliseconds the timer is restarted with.
* `reverseRoute_timeOut`, `request_timeOut`: The deadline after a request.
* `reverseLifeRight_iff`: When it is the right one.
-/

namespace OpenManet

/-- The milliseconds the request asks for, none or less from the seventieth hop on. The
    hop count is incremented already. -/
def askedMs (m : RreqHeader) : Int :=
  2 * netTraversalTime - 2 * m.hopCount.toNat * nodeTraversalTime

/-! ### Times to go -/

theorem carryAll_of_le (t : Timespec) (h : t.tvNsec ≤ 1000000000) : carryAll t = t := by
  unfold carryAll
  cases t.tvNsec.toNat / 1000000000 with
  | zero => rfl
  | succ k => exact if_neg (Int.not_lt.mpr h)

/-- Whole seconds are added to the seconds. -/
theorem addTimeMs_threeSeconds (now : Timespec) (hnow : now.Normalised) :
    addTimeMs now (toU32 activeRouteTimeout) =
      { tvSec := now.tvSec + 3, tvNsec := now.tvNsec } := by
  have hnone : ((toU32 activeRouteTimeout - 1000 * (toU32 activeRouteTimeout / 1000)) *
      1000000).toNat = 0 := rfl
  unfold addTimeMs
  rw [hnone, Int.natCast_zero, Int.zero_add]
  exact carryAll_of_le _ (Int.le_of_lt hnow.2)

theorem addTimeMs_zero (now : Timespec) (hnow : now.Normalised) : addTimeMs now 0 = now := by
  have hnone : (((0 : U32) - 1000 * (0 / 1000)) * 1000000).toNat = 0 := rfl
  have hzero : ((0 : U32) / 1000).toNat = 0 := rfl
  unfold addTimeMs
  rw [hnone, hzero, Int.natCast_zero, Int.zero_add, Int.add_zero]
  exact carryAll_of_le _ (Int.le_of_lt hnow.2)

theorem convertMsToTimespec_eq (ms : U32) :
    convertMsToTimespec ms =
      { tvSec := ms.toNat / 1000, tvNsec := ms.toNat % 1000 * 1000000 } := by
  have hdiv : ((ms / 1000).toNat : Int) = ms.toNat / 1000 := by
    rw [BitVec.toNat_udiv]
    rfl
  have hrest : ((ms.toNat : Int) - ms.toNat / 1000 * 1000) * 1000000 =
      ms.toNat % 1000 * 1000000 := by omega
  unfold convertMsToTimespec
  rw [carryAll_of_le]
  · simp only [hdiv, hrest]
  · simp only [hdiv]
    omega

/-- On equal seconds the nanoseconds decide nothing. -/
theorem maxTimespec_of_seconds (a b : Timespec) (ha : a.Normalised) (hb : b.Normalised) :
    maxTimespec a b = if b.tvSec ≤ a.tvSec then a else b := by
  rcases ha with ⟨ha, ha'⟩
  rcases hb with ⟨hb, hb'⟩
  unfold maxTimespec
  by_cases hsec : b.tvSec ≤ a.tvSec
  · rw [if_pos hsec, if_pos hsec]
    by_cases hnsec : b.tvNsec ≤ a.tvNsec
    · rw [if_pos hnsec]
    · have hnone : (a.tvNsec - b.tvNsec).tdiv 1000000000 = 0 := by
        rw [← Int.neg_sub, Int.neg_tdiv, Int.tdiv_eq_zero_of_lt (by omega) (by omega)]
        rfl
      rw [if_neg hnsec, hnone, Int.sub_zero, if_pos hsec]
  · rw [if_neg hsec, if_neg hsec]

/-- The seconds of the time left. A second is missing when the deadline was just missed. -/
theorem subtractTime_seconds (now old : Timespec) (hnow : now.Normalised) (hold : old.Normalised) :
    (subtractTime now old).Normalised ∧
      (subtractTime now old).tvSec =
        if JustMissed now old then -1 else wholeMsLeft now old / 1000 := by
  rcases hnow with ⟨hnow, hnow'⟩
  rcases hold with ⟨hold, hold'⟩
  by_cases hmissed : JustMissed now old
  · -- A second is borrowed of no seconds at all.
    rcases hmissed with ⟨hsec, hnsec⟩
    rw [if_pos ⟨hsec, hnsec⟩]
    simp only [subtractTime, Timespec.Normalised]
    rw [if_neg (by omega), if_pos (by omega)]
    simp only []
    omega
  · rw [if_neg hmissed]
    simp only [JustMissed, not_and, Int.not_lt] at hmissed
    simp only [subtractTime, wholeMsLeft, Timespec.nanos, Timespec.Normalised]
    by_cases hpast : old.tvSec - now.tvSec < 0
    · rw [if_pos hpast]
      simp only []
      omega
    · rw [if_neg hpast]
      by_cases hborrow : old.tvNsec - now.tvNsec < 0
      · rw [if_pos hborrow]
        simp only []
        omega
      · rw [if_neg hborrow]
        simp only []
        omega

/-- The timer is restarted with the time asked for unless the old one has more seconds. -/
theorem timer_ms (now old : Timespec) (ms : U32) (hnow : now.Normalised) (hold : old.Normalised) :
    ((convertTimespecToMs (maxTimespec (convertMsToTimespec ms) (subtractTime now old))).toNat
        : Int) =
      if (ms.toNat : Int) / 1000 < wholeMsLeft now old / 1000 then
        wholeMsLeft now old % 4294967296
      else ms.toNat := by
  rcases subtractTime_seconds now old hnow hold with ⟨hnormal, hseconds⟩
  have hasked : (convertMsToTimespec ms).Normalised := by
    rw [convertMsToTimespec_eq]
    simp only [Timespec.Normalised]
    omega
  rw [maxTimespec_of_seconds _ _ hasked hnormal, hseconds, convertMsToTimespec_eq]
  by_cases hmissed : JustMissed now old
  · -- Nothing is left, and what came out for it is less than that.
    have hnone : wholeMsLeft now old = 0 := by
      rcases hmissed with ⟨hsec, hnsec⟩
      simp only [wholeMsLeft, Timespec.nanos]
      omega
    rw [if_pos hmissed, if_pos (by simp only []; omega), if_neg (by omega),
      convertTimespecToMs_toNat]
    simp only []
    rw [Int.tdiv_eq_ediv_of_nonneg (by omega)]
    have hlt := ms.isLt
    omega
  · rw [if_neg hmissed]
    by_cases hmore : (ms.toNat : Int) / 1000 < wholeMsLeft now old / 1000
    · rw [if_pos hmore, if_neg (Int.not_le.mpr hmore)]
      exact lifetime_left now old hnow.proper hold.proper hmissed
    · rw [if_neg hmore, if_pos (Int.not_lt.mp hmore), convertTimespecToMs_toNat]
      simp only []
      rw [Int.tdiv_eq_ediv_of_nonneg (by omega)]
      have hlt := ms.isLt
      omega

/-- A timer just set to the three seconds of an active route counts as that much. -/
theorem timer_ms_threeSeconds (now : Timespec) (ms : U32) (hnow : now.Normalised) :
    ((convertTimespecToMs (maxTimespec (convertMsToTimespec ms)
        (subtractTime now (addTimeMs now (toU32 activeRouteTimeout))))).toNat : Int) =
      max 3000 ms.toNat := by
  have hahead : Timespec.Normalised { tvSec := now.tvSec + 3, tvNsec := now.tvNsec } := hnow
  have hthree : wholeMsLeft now { tvSec := now.tvSec + 3, tvNsec := now.tvNsec } = 3000 := by
    simp only [wholeMsLeft, Timespec.nanos]
    omega
  rw [addTimeMs_threeSeconds now hnow, timer_ms now _ ms hnow hahead, hthree]
  -- Below three seconds they are the larger, and from there on what is asked for is.
  split
  · omega
  · omega

/-! ### The deadline after a request -/

/-- The deadline of the originator's entry before the request. An entry there is none of
    yet is made without a lifetime, or has just been made for the previous hop. -/
def oldDeadline (now : Timespec) (s : U32) (m : RreqHeader) (n : Node) : Timespec :=
  ((n.getRoutingEntry m.srcIp).map RoutingEntry.timeOut).getD
    (if slotOf m.srcIp = slotOf s then addTimeMs now (toU32 activeRouteTimeout) else now)

/-- The deadline the reverse-route section finds. -/
def foundDeadline (now : Timespec) (s : U32) (m : RreqHeader) (n : Node) : Timespec :=
  if slotOf m.srcIp = slotOf s then addTimeMs now (toU32 activeRouteTimeout)
  else oldDeadline now s m n

theorem foundDeadline_eq (env : Env) (s : U32) (m : RreqHeader) (n : Node)
    (hnow : env.now.Normalised) :
    (reverseTarget env s (incrementHopRreq m) (afterPreviousHop env s m.srcIp n)).timeOut =
      foundDeadline env.now s m n := by
  unfold reverseTarget foundDeadline oldDeadline
  have hsrc : (incrementHopRreq m).srcIp = m.srcIp := rfl
  rw [hsrc, afterPreviousHop_getRoutingEntry]
  by_cases hslot : slotOf m.srcIp = slotOf s
  · rw [if_pos hslot, if_pos hslot]
    unfold previousHopEntry Node.isNew
    cases n.getRoutingEntry s <;> rfl
  · rw [if_neg hslot, if_neg hslot, if_neg hslot]
    cases n.getRoutingEntry m.srcIp with
    | none => exact addTimeMs_zero env.now hnow
    | some e => rfl

theorem reverseRoute_timeOut (env : Env) (s : U32) (m : RreqHeader) (new : Bool)
    (e : RoutingEntry) :
    (e.reverseRoute env s m new).timeOut =
      restarted env.now (convertTimespecToMs (maxTimespec
        (convertMsToTimespec (minimalLifetime m)) (subtractTime env.now e.timeOut)))
        (some e.timeOut) := by
  unfold RoutingEntry.reverseRoute
  -- The update test leaves the deadline alone either way.
  by_cases htaken : (new || fresherReverse m
      { e with rreqId := m.rreqId, rreqIdSet := true }.startRreqTimer) = true
  · simp only [if_pos htaken]
    rfl
  · simp only [if_neg htaken]
    rfl

/-- The deadline a request leaves that is neither the node's own nor a duplicate. -/
theorem request_timeOut (env : Env) (s : U32) (m : RreqHeader) (n : Node)
    (hnow : env.now.Normalised) (hother : s ≠ n.ipAddress)
    (hnew : ¬ dropped m (afterPreviousHop env s m.srcIp n)) :
    ((step n { env := env, event := .control s (.rreq m) }).getRoutingEntry m.srcIp).map
        RoutingEntry.timeOut =
      some (restarted env.now (convertTimespecToMs (maxTimespec
        (convertMsToTimespec (minimalLifetime (incrementHopRreq m)))
        (subtractTime env.now (foundDeadline env.now s m n))))
        (some (foundDeadline env.now s m n))) := by
  have hsrc : slotOf m.srcIp = slotOf (incrementHopRreq m).srcIp := rfl
  rw [step_rreq, if_neg hother, recvRreq_new env s m n hnew,
    recvNewRreq_entry RoutingEntry.timeOut unmarked_timeOut, if_pos hsrc, reverseRoute_timeOut,
    foundDeadline_eq env s m n hnow]

/-! ### When it is the right one -/

/-- The entry ends at the later of the old deadline and the time asked for, less than a
    millisecond early, or at once when neither is to come. -/
def EndsRight (now old : Timespec) (asked : Int) (timeOut : Timespec) : Prop :=
  let later := max old.nanos (now.nanos + max 0 asked * 1000000)
  (now.nanos < later → timeOut.nanos ≤ later ∧ later - timeOut.nanos < 1000000) ∧
    (later ≤ now.nanos → subtractTime now timeOut = { tvSec := 0, tvNsec := 0 })

/-- The step leaves the originator's entry with the right deadline. -/
def ReverseLifeRight (env : Env) (s : U32) (m : RreqHeader) (n : Node) : Prop :=
  ∃ e, (step n { env := env, event := .control s (.rreq m) }).getRoutingEntry m.srcIp = some e ∧
    EndsRight env.now (oldDeadline env.now s m n) (askedMs (incrementHopRreq m)) e.timeOut

/-- The condition for a deadline of the originator's alone. A deadline that is past must
    not be just missed if it is to stay, and nothing negative may be asked for. One to
    come is kept if it has more seconds to go, as long as they fit, and otherwise
    replaced, so that it must not be later. -/
def LifeKept (now old : Timespec) (asked : Int) : Prop :=
  let ms := asked % 4294967296
  if old.nanos < now.nanos then 0 < asked ∨ (asked = 0 ∧ ¬ JustMissed now old)
  else if ms / 1000 < wholeMsLeft now old / 1000 then
    wholeMsLeft now old < 4294967296 ∨ wholeMsLeft now old % 4294967296 = 0
  else
    wholeMsLeft now old = ms ∨ asked = 0 ∨ (0 < asked ∧ wholeMsLeft now old < ms)

/-- The condition for a deadline the previous hop's three seconds have replaced: the
    larger of the whole milliseconds is the same with them. -/
def OverwrittenLifeKept (now old : Timespec) (asked : Int) : Prop :=
  max (wholeMsLeft now old) asked = max 3000 (asked % 4294967296)

/-- What is asked for is at most 5600 milliseconds, and wraps when it is negative. -/
theorem minimalLifetime_toNat (m : RreqHeader) :
    -14800 ≤ askedMs m ∧ askedMs m ≤ 5600 ∧
      ((minimalLifetime m).toNat : Int) = askedMs m % 4294967296 := by
  have hbyte := m.hopCount.isLt
  have hasked : askedMs m = 5600 - 80 * m.hopCount.toNat := by
    simp only [askedMs, netTraversalTime, nodeTraversalTime, netDiameter]
    omega
  refine ⟨by omega, by omega, ?_⟩
  exact toU32_toNat (askedMs m)

/-- Before a deadline there is some time left. -/
theorem subtractTime_ne_zero (now t : Timespec) (hnow : now.Normalised) (ht : t.Proper)
    (hlt : now.nanos < t.nanos) : subtractTime now t ≠ { tvSec := 0, tvNsec := 0 } := by
  intro heq
  rcases hnow with ⟨hnow, hnow'⟩
  rcases ht with ⟨ht, ht'⟩
  unfold Timespec.nanos at hlt
  have hsec : ¬ t.tvSec - now.tvSec < 0 := by omega
  simp only [subtractTime, if_neg hsec] at heq
  by_cases hborrow : t.tvNsec - now.tvNsec < 0
  · rw [if_pos hborrow, Timespec.mk.injEq] at heq
    omega
  · rw [if_neg hborrow, Timespec.mk.injEq] at heq
    omega

/-- A deadline now or before, not just missed, leaves nothing. -/
theorem subtractTime_eq_zero (now t : Timespec) (hnow : now.Normalised) (ht : t.Normalised)
    (hmissed : ¬ JustMissed now t) (hle : t.nanos ≤ now.nanos) :
    subtractTime now t = { tvSec := 0, tvNsec := 0 } := by
  rcases hnow with ⟨hnow, hnow'⟩
  rcases ht with ⟨ht, ht'⟩
  unfold Timespec.nanos at hle
  simp only [JustMissed, not_and, Int.not_lt] at hmissed
  simp only [subtractTime]
  by_cases hpast : t.tvSec - now.tvSec < 0
  · rw [if_pos hpast]
  · rw [if_neg hpast, if_neg (by omega), Timespec.mk.injEq]
    omega

/-- A restarted timer ends rightly when its whole milliseconds are the larger ones. -/
theorem endsRight_restarted_iff (now old found : Timespec) (asked : Int) (ms : U32)
    (hnow : now.Normalised) (hms : ms ≠ 0) :
    EndsRight now old asked (restarted now ms (some found)) ↔
      max (wholeMsLeft now old) (max 0 asked) = ms.toNat := by
  have hpos := ms_pos ms hms
  have hnanos : (restarted now ms (some found)).nanos = now.nanos + ms.toNat * 1000000 := by
    rw [restarted, if_pos hms, addTimeMs_nanos]
  have hsome := subtractTime_ne_zero now (restarted now ms (some found)) hnow
    (by rw [restarted, if_pos hms]; exact addTimeMs_proper now ms hnow) (by omega)
  simp only [EndsRight, hnanos, wholeMsLeft]
  constructor
  · rintro ⟨hright, hatOnce⟩
    by_cases hlater : now.nanos < max old.nanos (now.nanos + max 0 asked * 1000000)
    · have hends := hright hlater
      omega
    · exact absurd (hatOnce (Int.not_lt.mp hlater)) hsome
  · intro hlargest
    refine ⟨fun _ => by omega, fun hnone => ?_⟩
    omega

theorem restarted_zero (now old : Timespec) : restarted now 0 (some old) = old :=
  if_neg (not_not.mpr rfl)

/-- A deadline that stays when nothing is asked for is right unless it is just missed. -/
theorem endsRight_kept_iff (now old : Timespec) (hnow : now.Normalised) (hold : old.Normalised) :
    EndsRight now old 0 (restarted now 0 (some old)) ↔ ¬ JustMissed now old := by
  have hlater : max old.nanos (now.nanos + max 0 0 * 1000000) = max old.nanos now.nanos := by
    omega
  rw [restarted_zero]
  simp only [EndsRight, hlater]
  constructor
  · rintro ⟨-, hatOnce⟩ hmissed
    have hle : max old.nanos now.nanos ≤ now.nanos := by
      rcases hmissed with ⟨hsec, hnsec⟩
      unfold Timespec.nanos
      omega
    have hseconds := (subtractTime_seconds now old hnow hold).2
    rw [hatOnce hle, if_pos hmissed] at hseconds
    exact absurd hseconds (by decide)
  · intro hmissed
    refine ⟨fun hlt => by omega, fun hle => ?_⟩
    exact subtractTime_eq_zero now old hnow hold hmissed (by omega)

/-- A deadline that stays is right if it is to come and not before the time asked for. -/
theorem endsRight_kept (now old : Timespec) (asked : Int) (hcome : now.nanos < old.nanos)
    (hlatest : now.nanos + max 0 asked * 1000000 ≤ old.nanos) :
    EndsRight now old asked (restarted now 0 (some old)) := by
  rw [restarted_zero]
  simp only [EndsRight]
  omega

/-- The condition for a deadline of the originator's alone, from the milliseconds the
    timer is restarted with. -/
theorem endsRight_iff_lifeKept (now old : Timespec) (asked : Int) (ms restart : U32)
    (hnow : now.Normalised) (hold : old.Normalised) (hasked : -14800 ≤ asked ∧ asked ≤ 5600)
    (hms : (ms.toNat : Int) = asked % 4294967296)
    (hrestart : (restart.toNat : Int) =
      if (ms.toNat : Int) / 1000 < wholeMsLeft now old / 1000 then
        wholeMsLeft now old % 4294967296
      else ms.toNat) :
    EndsRight now old asked (restarted now restart (some old)) ↔ LifeKept now old asked := by
  have hleft : wholeMsLeft now old = max 0 (old.nanos - now.nanos) / 1000000 := rfl
  simp only [LifeKept, ← hms]
  by_cases hzero : restart = 0
  · rw [hzero] at hrestart ⊢
    have hnone : ((0 : U32).toNat : Int) = 0 := rfl
    by_cases hmore : (ms.toNat : Int) / 1000 < wholeMsLeft now old / 1000
    · -- The old deadline stays, and it is the later one.
      rw [if_pos hmore] at hrestart
      rw [if_neg (by omega), if_pos hmore]
      exact iff_of_true (endsRight_kept now old asked (by omega) (by omega))
        (Or.inr (by omega))
    · rw [if_neg hmore] at hrestart
      have hnothing : asked = 0 := by omega
      rw [hnothing, endsRight_kept_iff now old hnow hold, if_neg hmore]
      by_cases hpast : old.nanos < now.nanos
      · rw [if_pos hpast]
        exact ⟨fun h => Or.inr ⟨rfl, h⟩, fun h => (h.resolve_left (Int.lt_irrefl 0)).2⟩
      · rw [if_neg hpast]
        refine iff_of_true (fun hmissed => hpast ?_) (Or.inr (Or.inl rfl))
        rcases hmissed with ⟨hsec, hnsec⟩
        unfold Timespec.nanos
        omega
  · have hpos := ms_pos restart hzero
    rw [endsRight_restarted_iff now old old asked restart hnow hzero]
    by_cases hpast : old.nanos < now.nanos
    · rw [if_neg (by omega)] at hrestart
      rw [if_pos hpast]
      have hnonzero : asked ≠ 0 := by omega
      constructor
      · intro hlargest
        exact Or.inl (by omega)
      · intro hright
        have hasks := hright.resolve_right (fun h => hnonzero h.1)
        omega
    · rw [if_neg hpast]
      by_cases hmore : (ms.toNat : Int) / 1000 < wholeMsLeft now old / 1000
      · rw [if_pos hmore] at hrestart ⊢
        omega
      · rw [if_neg hmore] at hrestart ⊢
        omega

/-- The condition for a deadline replaced by the previous hop's. -/
theorem endsRight_iff_overwritten (now old : Timespec) (asked : Int) (ms restart : U32)
    (hnow : now.Normalised) (hms : (ms.toNat : Int) = asked % 4294967296)
    (hrestart : (restart.toNat : Int) = max 3000 ms.toNat) (found : Timespec) :
    EndsRight now old asked (restarted now restart (some found)) ↔
      OverwrittenLifeKept now old asked := by
  have hnonzero : restart ≠ 0 := by
    intro hzero
    rw [hzero] at hrestart
    have hnone : ((0 : U32).toNat : Int) = 0 := rfl
    omega
  have hleft : wholeMsLeft now old = max 0 (old.nanos - now.nanos) / 1000000 := rfl
  rw [endsRight_restarted_iff now old found asked restart hnow hnonzero]
  simp only [OverwrittenLifeKept, ← hms]
  omega

theorem oldDeadline_normalised (now : Timespec) (s : U32) (m : RreqHeader) (n : Node)
    (hnow : now.Normalised)
    (hold : ∀ e, n.getRoutingEntry m.srcIp = some e → e.timeOut.Normalised) :
    (oldDeadline now s m n).Normalised := by
  unfold oldDeadline
  cases hfound : n.getRoutingEntry m.srcIp with
  | some e => exact hold e hfound
  | none =>
      rw [Option.map_none, Option.getD_none, addTimeMs_threeSeconds now hnow]
      split
      · exact hnow
      · exact hnow

/-- A request that is taken up leaves the right deadline exactly when none of the slips
    matters for what the originator's entry has and what the request asks for, or, for an
    entry that is the previous hop's too, when the replaced deadline makes no difference. -/
theorem reverseLifeRight_iff (env : Env) (s : U32) (m : RreqHeader) (n : Node)
    (hnow : env.now.Normalised)
    (hold : ∀ e, n.getRoutingEntry m.srcIp = some e → e.timeOut.Normalised)
    (hother : s ≠ n.ipAddress) (hnew : ¬ dropped m (afterPreviousHop env s m.srcIp n)) :
    ReverseLifeRight env s m n ↔
      if slotOf m.srcIp = slotOf s then
        OverwrittenLifeKept env.now (oldDeadline env.now s m n) (askedMs (incrementHopRreq m))
      else LifeKept env.now (oldDeadline env.now s m n) (askedMs (incrementHopRreq m)) := by
  have hnormal := oldDeadline_normalised env.now s m n hnow hold
  rcases minimalLifetime_toNat (incrementHopRreq m) with ⟨hleast, hmost, hms⟩
  have htime := request_timeOut env s m n hnow hother hnew
  rcases Option.map_eq_some_iff.mp htime with ⟨e, he, htimeOut⟩
  -- The entry is there, so its deadline decides.
  have hright : ReverseLifeRight env s m n ↔ EndsRight env.now (oldDeadline env.now s m n)
      (askedMs (incrementHopRreq m)) e.timeOut := by
    constructor
    · rintro ⟨e', he', hends⟩
      cases he.symm.trans he'
      exact hends
    · exact fun hends => ⟨e, he, hends⟩
  rw [hright, htimeOut]
  by_cases hslot : slotOf m.srcIp = slotOf s
  · rw [if_pos hslot]
    have hfound : foundDeadline env.now s m n = addTimeMs env.now (toU32 activeRouteTimeout) :=
      if_pos hslot
    rw [hfound]
    exact endsRight_iff_overwritten _ _ _ _ _ hnow hms (timer_ms_threeSeconds env.now _ hnow) _
  · rw [if_neg hslot]
    have hfound : foundDeadline env.now s m n = oldDeadline env.now s m n := if_neg hslot
    rw [hfound]
    exact endsRight_iff_lifeKept _ _ _ _ _ hnow hnormal ⟨hleast, hmost⟩ hms
      (timer_ms env.now _ _ hnow hnormal)

/-- A request of 1.0.0.0 for 9.0.0.0 that has come over so many hops. -/
def requestOver (hops : Byte) (rreqId : U32) : RreqHeader :=
  { generateRreqMessage (rreqUnknown.setWidth 8) rreqId 0x09000000 0 0x01000000 rreqId with
    ttl := 5, hopCount := hops }

/-- A node that has got a request of 1.0.0.0 as the second on its way. -/
def heardOfOriginator : Node :=
  run step (Node.boot 0x02000000 0xFFFFFFFF fun _ => 0)
    [receive 0x03000000 (.rreq (requestOver 1 1))]

/-- Half a second later the same way gives a later deadline. -/
theorem reverseLifeRight_iff_later :
    ReverseLifeRight (.clearAt 0 500000000) 0x03000000 (requestOver 1 2) heardOfOriginator :=
  (reverseLifeRight_iff (.clearAt 0 500000000) 0x03000000 (requestOver 1 2) heardOfOriginator
    (by decide)
    (by decide) (by decide) (by unfold dropped; decide)).mpr (by
      rw [if_neg (by decide)]
      unfold LifeKept
      decide)

/-- One hop more takes 80 milliseconds from the route. -/
theorem not_reverseLifeRight_longerWay :
    ¬ ∀ (env : Env) (s : U32) (m : RreqHeader) (n : Node), env.now.Normalised →
      (∀ e, n.getRoutingEntry m.srcIp = some e → e.timeOut.Normalised) → s ≠ n.ipAddress →
      ¬ dropped m (afterPreviousHop env s m.srcIp n) → ReverseLifeRight env s m n := by
  intro h
  rcases h .clear 0x03000000 (requestOver 2 2) heardOfOriginator (by decide) (by decide)
    (by decide) (by unfold dropped; decide) with ⟨e, he, hends, -⟩
  cases he
  exact absurd (hends (by decide)).2 (by decide)

end OpenManet
