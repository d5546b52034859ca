import OpenManet.Core.Expiration
import OpenManet.Theory.Lifetimes

/-!
# Deadlines and the Clock

Two routines measure the time to a deadline. `subtract_time` gives a `timespec` and
`get_ms_difference` milliseconds, and both test the seconds only: a deadline of the
running second is treated as one still to come. When it is past already the first
borrows a second there is none of, and the second, which would not borrow from no
milliseconds, is left with a negative number of nanoseconds.

A time below zero is no argument for `nanosleep`, and the expiration thread sleeps
until that succeeds. The other way to an argument `nanosleep` refuses is the carry of
`add_time_ms`, which leaves exactly a second's worth of nanoseconds alone: a thread
that starts on the full second gets them as they are.

## Main definitions

* `Timespec.Normalised`: The form the clock has.
* `DifferencesAgree`: The two routines give the time left, or none.
* `Timespec.CanSleep`: What `nanosleep` accepts.
* `NanosleepMeets`: What is relied on of the system call.
* `UncarriedSecond`: The deadline keeps a second in its nanoseconds, and the clock
  has none to take off.
* `Expires`: The thread sleeps, wakes up and expires its entry.

## Theorems

* `subtractTime_canSleep_iff`: When the time left can be slept.
* `getMsDifference_left`: The milliseconds of the second routine.
* `differencesAgree_iff`: When the two agree.
* `sleepLoop_invalid`, `sleepLoop_ends`: The loop on either kind of argument.
* `expirationFunc_expires`: Awake, the thread leaves no valid route.
* `expires_iff`: When the thread gets to expire its entry.
* `not_expires_stuck`: What it does otherwise.
-/

namespace OpenManet

/-- The nanoseconds are less than a second. -/
def Timespec.Normalised (t : Timespec) : Prop := 0 ≤ t.tvNsec ∧ t.tvNsec < 1000000000

instance (t : Timespec) : Decidable t.Normalised := inferInstanceAs (Decidable (_ ∧ _))

theorem Timespec.Normalised.proper {t : Timespec} (h : t.Normalised) : t.Proper :=
  ⟨h.1, Int.le_of_lt h.2⟩

/-- What `nanosleep` accepts: no negative time, and less than a second of nanoseconds. -/
def Timespec.CanSleep (t : Timespec) : Prop := 0 ≤ t.tvSec ∧ t.Normalised

instance (t : Timespec) : Decidable t.CanSleep := inferInstanceAs (Decidable (_ ∧ _))

/-- A second is kept in the nanoseconds of the deadline, and the clock, on a full second
    not after it, has no nanoseconds to take off. -/
def UncarriedSecond (now deadline : Timespec) : Prop :=
  deadline.tvNsec = 1000000000 ∧ now.tvNsec = 0 ∧ now.tvSec ≤ deadline.tvSec

instance (now deadline : Timespec) : Decidable (UncarriedSecond now deadline) :=
  inferInstanceAs (Decidable (_ ∧ _))

/-! ### The time left -/

theorem subtractTime_canSleep_iff (now deadline : Timespec) (hnow : now.Normalised)
    (hdeadline : deadline.Proper) :
    (subtractTime now deadline).CanSleep ↔
      ¬ JustMissed now deadline ∧ ¬ UncarriedSecond now deadline := by
  rcases hnow with ⟨hnow, hnow'⟩
  rcases hdeadline with ⟨hdeadline, hdeadline'⟩
  simp only [subtractTime, JustMissed, UncarriedSecond]
  by_cases hpast : deadline.tvSec - now.tvSec < 0
  · -- An earlier second is cut off at zero.
    rw [if_pos hpast]
    simp only [Timespec.CanSleep, Timespec.Normalised]
    omega
  · rw [if_neg hpast]
    by_cases hborrow : deadline.tvNsec - now.tvNsec < 0
    · rw [if_pos hborrow]
      simp only [Timespec.CanSleep, Timespec.Normalised]
      omega
    · rw [if_neg hborrow]
      simp only [Timespec.CanSleep, Timespec.Normalised]
      omega

/-! ### The two routines -/

theorem toU32_toNat (z : Int) : ((toU32 z).toNat : Int) = z % 4294967296 := by
  unfold toU32
  rw [BitVec.toNat_ofInt]
  exact Int.toNat_of_nonneg (Int.emod_nonneg _ (by decide))

/-- Sums of converted values may be taken before the conversion. -/
theorem toU32_add (a b : Int) : toU32 a + toU32 b = toU32 (a + b) := (BitVec.ofInt_add a b).symm

theorem toU32_sub (a b : Int) : toU32 a - toU32 b = toU32 (a - b) := by
  rw [sub_eq_iff_eq_add, toU32_add, Int.sub_add_cancel]

/-- As long as the seconds fit, their milliseconds wrap to none only if there are none. -/
theorem toU32_seconds_pos (sec : Int) (hpos : 0 < sec) (hfit : sec ≤ 4294968) :
    toU32 (1000 * sec) > 0 := by
  have hnat := toU32_toNat (1000 * sec)
  refine BitVec.lt_def.mpr (Nat.pos_of_ne_zero (fun hzero => ?_))
  rw [hzero] at hnat
  -- The whole range is no multiple of a thousand.
  have hturns : 1000 * sec / 4294967296 = 0 ∨ 1000 * sec / 4294967296 = 1 := by omega
  rcases hturns with hnone | hone
  · omega
  · omega

/-- The borrow is taken whenever there is a second to borrow, as long as the seconds
    fit into the milliseconds. -/
theorem getMsDifference_left (now deadline : Timespec) (hnow : now.Normalised)
    (hdeadline : deadline.Normalised) (hmissed : ¬ JustMissed now deadline)
    (hfit : deadline.nanos - now.nanos < 4294967296 * 1000000) :
    ((getMsDifference now deadline).toNat : Int) = wholeMsLeft now deadline := by
  rcases hnow with ⟨hnow, hnow'⟩
  rcases hdeadline with ⟨hdeadline, hdeadline'⟩
  simp only [JustMissed, not_and, Int.not_lt] at hmissed
  simp only [Timespec.nanos] at hfit
  simp only [getMsDifference, wholeMsLeft, Timespec.nanos]
  by_cases hpast : deadline.tvSec - now.tvSec < 0
  · have hnone : max 0 (deadline.tvSec * 1000000000 + deadline.tvNsec -
        (now.tvSec * 1000000000 + now.tvNsec)) = 0 := by omega
    rw [if_pos hpast, hnone]
    rfl
  · rw [if_neg hpast]
    have hthousand : (1000 : U32) = toU32 1000 := rfl
    by_cases hborrow : deadline.tvNsec - now.tvNsec < 0
    · -- Then there is a whole second to borrow.
      have hsome := toU32_seconds_pos (deadline.tvSec - now.tvSec) (by omega) (by omega)
      rw [if_pos ⟨hborrow, hsome⟩, hthousand, toU32_sub, toU32_add, toU32_toNat,
        Int.tdiv_eq_ediv_of_nonneg (by omega)]
      omega
    · rw [if_neg (fun h => hborrow h.1), toU32_add, toU32_toNat,
        Int.tdiv_eq_ediv_of_nonneg (by omega)]
      omega

/-- The routines give the same milliseconds, those left until the deadline, and the
    time left is a time from zero on. -/
structure DifferencesAgree (now deadline : Timespec) : Prop where
  agree : getMsDifference now deadline = convertTimespecToMs (subtractTime now deadline)
  left : ((getMsDifference now deadline).toNat : Int) = wholeMsLeft now deadline
  normalised : (subtractTime now deadline).Normalised
  nonneg : 0 ≤ (subtractTime now deadline).tvSec

/-- The two routines agree, and on the documented result, exactly when the deadline was
    not missed within the running second. -/
theorem differencesAgree_iff (now deadline : Timespec) (hnow : now.Normalised)
    (hdeadline : deadline.Normalised)
    (hfit : deadline.nanos - now.nanos < 4294967296 * 1000000) :
    DifferencesAgree now deadline ↔ ¬ JustMissed now deadline := by
  have hsleep := subtractTime_canSleep_iff now deadline hnow hdeadline.proper
  constructor
  · intro h
    exact (hsleep.mp ⟨h.nonneg, h.normalised⟩).1
  · intro hmissed
    have hcarried : ¬ UncarriedSecond now deadline := by
      intro h
      exact absurd h.1 (Int.ne_of_lt hdeadline.2)
    have hvalid := hsleep.mpr ⟨hmissed, hcarried⟩
    have hms := getMsDifference_left now deadline hnow hdeadline hmissed hfit
    have hleft := lifetime_left now deadline hnow.proper hdeadline.proper hmissed
    refine ⟨BitVec.eq_of_toNat_eq ?_, hms, hvalid.2, hvalid.1⟩
    -- What fits is not changed by the conversion.
    have hbounds : 0 ≤ wholeMsLeft now deadline ∧ wholeMsLeft now deadline < 4294967296 := by
      unfold wholeMsLeft
      omega
    rw [Int.emod_eq_of_lt hbounds.1 hbounds.2, ← hms] at hleft
    exact (Int.ofNat.inj hleft).symm

/-- Half a second before a deadline in the next second the routines agree. -/
theorem differencesAgree_iff_ahead :
    DifferencesAgree { tvSec := 6, tvNsec := 700000000 } { tvSec := 7, tvNsec := 200000000 } :=
  (differencesAgree_iff _ _ (by decide) (by decide) (by decide)).mpr (by decide)

/-- A nanosecond after the deadline the one gives 0 and the other some 49 days. -/
theorem not_differencesAgree_justMissed :
    ¬ ∀ now deadline : Timespec, now.Normalised → deadline.Normalised →
      deadline.nanos - now.nanos < 4294967296 * 1000000 → DifferencesAgree now deadline := by
  intro h
  have hagree := (h { tvSec := 6, tvNsec := 1 } { tvSec := 6, tvNsec := 0 } (by decide) (by decide)
    (by decide)).agree
  exact absurd hagree (by decide)

/-! ### The sleep -/

/-- What is relied on of `nanosleep`: an argument it does not accept is an error and
    stays as it is, and on one it accepts it succeeds in the end, however often it is
    interrupted with some of the time left. -/
structure NanosleepMeets (nanosleep : Nanosleep) : Prop where
  invalid : ∀ call t, ¬ t.CanSleep → (nanosleep call t).1 ≠ 0 ∧ (nanosleep call t).2 = t
  valid : ∀ (argument : Nat → Timespec) (call : Nat), (argument 0).CanSleep →
    (∀ k, argument (k + 1) = (nanosleep (call + k) (argument k)).2) →
    ∃ k, (nanosleep (call + k) (argument k)).1 = 0

/-- An argument that is not accepted is tried again for ever. -/
theorem sleepLoop_invalid {nanosleep : Nanosleep} (hmeets : NanosleepMeets nanosleep)
    (t : Timespec) (ht : ¬ t.CanSleep) (rounds call : Nat) :
    sleepLoop nanosleep rounds call t = none := by
  induction rounds generalizing call with
  | zero => rfl
  | succ k ih =>
      rcases hmeets.invalid call t ht with ⟨herror, hsame⟩
      rw [sleepLoop, if_pos herror, hsame]
      exact ih (call + 1)

/-- The loop ends with the first call that succeeds. -/
theorem sleepLoop_of_success (nanosleep : Nanosleep) (k : Nat) (argument : Nat → Timespec)
    (call : Nat) (hnext : ∀ j, argument (j + 1) = (nanosleep (call + j) (argument j)).2)
    (hk : (nanosleep (call + k) (argument k)).1 = 0) :
    ∃ rest, sleepLoop nanosleep (k + 1) call (argument 0) = some rest := by
  induction k generalizing argument call with
  | zero => exact ⟨_, if_neg (not_not.mpr hk)⟩
  | succ k ih =>
      by_cases hfirst : (nanosleep call (argument 0)).1 = 0
      · exact ⟨_, if_neg (not_not.mpr hfirst)⟩
      · -- After a failed call the loop is the same loop on what is left.
        have hshift : ∀ j, call + (j + 1) = call + 1 + j := by
          intro j
          omega
        rcases ih (fun j => argument (j + 1)) (call + 1)
          (fun j => by rw [← hshift]; exact hnext (j + 1)) (by rw [← hshift]; exact hk)
          with ⟨rest, hrest⟩
        refine ⟨rest, ?_⟩
        have hrest' : (nanosleep call (argument 0)).2 = argument 1 := (hnext 0).symm
        rw [sleepLoop, if_pos hfirst, hrest']
        exact hrest

/-- What each call leaves for the next. -/
def sleepArguments (nanosleep : Nanosleep) (call : Nat) (t : Timespec) : Nat → Timespec
  | 0 => t
  | k + 1 => (nanosleep (call + k) (sleepArguments nanosleep call t k)).2

theorem sleepLoop_ends {nanosleep : Nanosleep} (hmeets : NanosleepMeets nanosleep) (t : Timespec)
    (ht : t.CanSleep) (call : Nat) :
    ∃ rounds rest, sleepLoop nanosleep rounds call t = some rest := by
  have hnext : ∀ k, sleepArguments nanosleep call t (k + 1) =
      (nanosleep (call + k) (sleepArguments nanosleep call t k)).2 := fun _ => rfl
  rcases hmeets.valid (sleepArguments nanosleep call t) call ht hnext with ⟨k, hk⟩
  exact ⟨k + 1, sleepLoop_of_success nanosleep k _ call hnext hk⟩

/-! ### The deadlines of the program -/

/-- A carry leaves a second's worth of nanoseconds at most. -/
theorem addTimeMs_proper (clock : Timespec) (ms : U32) (hclock : clock.Normalised) :
    (addTimeMs clock ms).Proper := by
  have hpos : ∀ rounds (t : Timespec), 0 ≤ t.tvNsec → 0 ≤ (carrySeconds rounds t).tvNsec := by
    intro rounds
    induction rounds with
    | zero => exact fun _ h => h
    | succ k ih =>
        intro t h
        simp only [carrySeconds]
        by_cases hgt : t.tvNsec > 1000000000
        · rw [if_pos hgt]
          exact ih _ (by simp only []; omega)
        · rw [if_neg hgt]
          exact h
  refine ⟨hpos _ _ ?_, carrySeconds_done _ _ (Nat.le_refl _)⟩
  rcases hclock with ⟨hclock, -⟩
  simp only []
  omega

/-! ### The thread -/

/-- No entry for the address has a valid route. -/
def RouteExpired (ip : U32) (n : Node) : Prop :=
  ∀ e, n.getRoutingEntry ip = some e → e.status = .routeInvalid

/-- The thread finds its entry when it wakes up, with its timer still running. -/
def WakesUpTo (ownEntry : RoutingEntry) (n : Node) : Prop :=
  ∃ e, n.getRoutingEntry ownEntry.destIp = some e ∧ e.expirationThread = true

/-- The time to sleep is one `nanosleep` accepts, the loop around it ends, and the
    entry the thread then finds is expired. -/
structure Expires (nanosleep : Nanosleep) (now : Timespec) (ownEntry : RoutingEntry) : Prop where
  canSleep : (subtractTime now ownEntry.timeOut).CanSleep
  ends : ∃ rounds, ∀ awake n, WakesUpTo ownEntry n →
    ∃ n', expirationThread nanosleep rounds now ownEntry awake n = some n' ∧
      RouteExpired ownEntry.destIp n'

/-- Awake, the thread leaves no valid route: an invalid entry is removed and a valid one
    is made invalid. -/
theorem expirationFunc_expires (env : Env) (ip : U32) (n : Node) (e : RoutingEntry)
    (he : n.getRoutingEntry ip = some e) (htimer : e.expirationThread = true) :
    RouteExpired ip ((expirationFunc env ip).exec Op.apply n).1 := by
  have hslots : n.routes.slots (slotOf ip) = some e := he
  have hrunning : (n.getRoutingEntry ip).any (·.expirationThread) = true := by
    rw [he]
    exact htimer
  intro e' he'
  simp only [expirationFunc, Prog.exec, hrunning, if_true] at he'
  by_cases hvalid : n.isValid ip = true
  · rw [if_pos hvalid] at he'
    simp only [Prog.exec, Node.getRoutingEntry_eq, apply_slots, Op.effect, Effect.slot, hslots,
      if_true, Option.map_some, Option.some.injEq] at he'
    rw [← he']
    rfl
  · rw [if_neg hvalid] at he'
    simp only [Prog.exec, Node.getRoutingEntry_eq, apply_slots, Op.effect, Effect.slot, if_true,
      reduceCtorEq] at he'

/-- A deadline the program sets is slept until, and the entry then expired, exactly when
    it was not missed within the running second and no second is left uncarried in it. -/
theorem expires_iff (nanosleep : Nanosleep) (hmeets : NanosleepMeets nanosleep)
    (clock now : Timespec) (ms : U32) (hclock : clock.Normalised) (hnow : now.Normalised)
    (ownEntry : RoutingEntry) (hset : ownEntry.timeOut = addTimeMs clock ms) :
    Expires nanosleep now ownEntry ↔
      ¬ JustMissed now ownEntry.timeOut ∧ ¬ UncarriedSecond now ownEntry.timeOut := by
  have hproper : ownEntry.timeOut.Proper := by
    rw [hset]
    exact addTimeMs_proper clock ms hclock
  rw [← subtractTime_canSleep_iff now ownEntry.timeOut hnow hproper]
  constructor
  · exact Expires.canSleep
  · intro hsleep
    rcases sleepLoop_ends hmeets _ hsleep 0 with ⟨rounds, rest, hends⟩
    refine ⟨hsleep, rounds, fun awake n hwakes => ?_⟩
    rcases hwakes with ⟨e, he, htimer⟩
    refine ⟨_, ?_, expirationFunc_expires awake _ n e he htimer⟩
    rw [expirationThread, hends, Option.map_some]

/-- Otherwise the thread never gets past its loop. -/
theorem not_expires_stuck (nanosleep : Nanosleep) (hmeets : NanosleepMeets nanosleep)
    (now : Timespec) (ownEntry : RoutingEntry)
    (hsleep : ¬ (subtractTime now ownEntry.timeOut).CanSleep) (rounds : Nat) (awake : Env)
    (n : Node) : expirationThread nanosleep rounds now ownEntry awake n = none := by
  rw [expirationThread, sleepLoop_invalid hmeets _ hsleep rounds 0, Option.map_none]

/-- A system call that is never interrupted. -/
def uninterrupted : Nanosleep := fun _ t =>
  if t.CanSleep then (0, { tvSec := 0, tvNsec := 0 }) else (-1, t)

theorem uninterrupted_meets : NanosleepMeets uninterrupted := by
  constructor
  · intro call t ht
    simp only [uninterrupted, if_neg ht]
    decide
  · intro argument call hargument _
    refine ⟨0, ?_⟩
    rw [uninterrupted, if_pos hargument]

/-- An entry for 3.0.0.0 as it is made at one second, to end two seconds later. -/
def endsAtThree : RoutingEntry :=
  freshEntry (.clearAt 1 0) 0x03000000 0 .seqInvalid 0x03000000 0 2000

/-- A thread started half a second before the end expires its entry. -/
theorem expires_iff_ahead : Expires uninterrupted { tvSec := 2, tvNsec := 500000000 } endsAtThree :=
  (expires_iff uninterrupted uninterrupted_meets { tvSec := 1, tvNsec := 0 }
    { tvSec := 2, tvNsec := 500000000 } 2000 (by decide) (by decide) endsAtThree rfl).mpr
    (by decide)

/-- A thread started a nanosecond after the end is refused its sleep. -/
theorem not_expires_refused :
    ¬ ∀ (nanosleep : Nanosleep) (clock now : Timespec) (ms : U32) (ownEntry : RoutingEntry),
      NanosleepMeets nanosleep → clock.Normalised → now.Normalised →
      ownEntry.timeOut = addTimeMs clock ms → Expires nanosleep now ownEntry := by
  intro h
  have hsleep := (h uninterrupted { tvSec := 1, tvNsec := 0 } { tvSec := 3, tvNsec := 1 } 2000
    endsAtThree uninterrupted_meets (by decide) (by decide) rfl).canSleep
  exact absurd hsleep (by decide)

end OpenManet
