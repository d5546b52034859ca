import OpenManet.Core.Config

/-!
# Time Arithmetic

The `timespec` routines of `time_funcs.c`. Seconds and nanoseconds are signed
and wide in the source, so they are integers here; the millisecond counts are
`uint32_t` and wrap.

The two `while` loops that carry whole seconds out of the nanoseconds are
`carrySeconds` with a bound on the number of rounds taken from its argument.
`carrySeconds_done` says the bound is never what stops the loop.

## Main definitions

* `Timespec`: Seconds and nanoseconds.
* `subtractTime`: The time left until a deadline, clamped at zero.
* `getMsDifference`: The same in milliseconds, with a borrow of its own.
* `addTimeMs`: A deadline some milliseconds ahead.
* `convertMsToTimespec`, `convertTimespecToMs`: The two conversions.
* `maxTimespec`: The later of two times.
* `Timespec.nanos`: The instant a `timespec` stands for.

## Theorems

* `carrySeconds_done`: The carrying loop ends by its own test.
* `addTimeMs_nanos`: A deadline is as many milliseconds ahead as it says.
-/

namespace OpenManet

/-- `struct timespec`. -/
structure Timespec where
  tvSec : Int
  tvNsec : Int
  deriving DecidableEq, Repr

/-- One more second is carried while more than a second's worth of nanoseconds
    is left. -/
def carrySeconds : Nat → Timespec → Timespec
  | 0, t => t
  | rounds + 1, t =>
    if t.tvNsec > 1000000000 then
      carrySeconds rounds { tvSec := t.tvSec + 1, tvNsec := t.tvNsec - 1000000000 }
    else t

/-- The loop `while(tv_nsec > 1000000000)` run to its end. -/
def carryAll (t : Timespec) : Timespec :=
  carrySeconds (t.tvNsec.toNat / 1000000000) t

/-- With a round for every whole second the nanoseconds hold, the loop stops
    because its test fails, not because it runs out of rounds. -/
theorem carrySeconds_done (rounds : Nat) (t : Timespec)
    (h : t.tvNsec.toNat / 1000000000 ≤ rounds) :
    (carrySeconds rounds t).tvNsec ≤ 1000000000 := by
  induction rounds generalizing t with
  | zero =>
      simp only [carrySeconds]
      omega
  | succ k ih =>
      simp only [carrySeconds]
      by_cases hgt : t.tvNsec > 1000000000
      · rw [if_pos hgt]
        exact ih _ (by simp only []; omega)
      · rw [if_neg hgt]
        omega

/-- The instant, in nanoseconds. -/
def Timespec.nanos (t : Timespec) : Int := t.tvSec * 1000000000 + t.tvNsec

theorem carrySeconds_nanos (rounds : Nat) (t : Timespec) :
    (carrySeconds rounds t).nanos = t.nanos := by
  induction rounds generalizing t with
  | zero => rfl
  | succ k ih =>
      simp only [carrySeconds]
      by_cases hgt : t.tvNsec > 1000000000
      · rw [if_pos hgt, ih]
        simp only [Timespec.nanos]
        omega
      · rw [if_neg hgt]

/-- The time from `current` to `deadline`. Only the seconds are tested before
    the nanoseconds borrow, so a deadline missed by less than a second comes out
    with `tvSec = -1`. -/
def subtractTime (current deadline : Timespec) : Timespec :=
  let sec := deadline.tvSec - current.tvSec
  if sec < 0 then { tvSec := 0, tvNsec := 0 }
  else
    let nsec := deadline.tvNsec - current.tvNsec
    if nsec < 0 then { tvSec := sec - 1, tvNsec := nsec + 1000000000 }
    else { tvSec := sec, tvNsec := nsec }

/-- The milliseconds from `current` to `deadline`. A second is borrowed only if the
    milliseconds counted so far are not zero. -/
def getMsDifference (current deadline : Timespec) : U32 :=
  let sec := deadline.tvSec - current.tvSec
  if sec < 0 then 0
  else
    let msDiff := toU32 (1000 * sec)
    let nsec := deadline.tvNsec - current.tvNsec
    if nsec < 0 ∧ msDiff > 0 then
      msDiff - 1000 + toU32 ((nsec + 1000000000).tdiv 1000000)
    else msDiff + toU32 (nsec.tdiv 1000000)

def addTimeMs (current : Timespec) (ms : U32) : Timespec :=
  carryAll
    { tvSec := current.tvSec + (ms / 1000).toNat
      tvNsec := ((ms - 1000 * (ms / 1000)) * 1000000).toNat + current.tvNsec }

/-- The milliseconds below a second, in nanoseconds, do not overflow. -/
theorem addTimeMs_nanos (current : Timespec) (ms : U32) :
    (addTimeMs current ms).nanos = current.nanos + ms.toNat * 1000000 := by
  have hdiv : (ms / 1000).toNat = ms.toNat / 1000 := BitVec.toNat_udiv
  -- No product of the source wraps, so words may be read as numbers.
  have hmul : (1000 * (ms / 1000)).toNat = 1000 * (ms.toNat / 1000) := by
    rw [BitVec.toNat_mul, hdiv]
    exact Nat.mod_eq_of_lt (Nat.lt_of_le_of_lt (Nat.mul_div_le _ _) ms.isLt)
  have hsub : (ms - 1000 * (ms / 1000)).toNat = ms.toNat % 1000 := by
    have hlt := ms.isLt
    rw [BitVec.toNat_sub, hmul]
    omega
  have hnsec : ((ms - 1000 * (ms / 1000)) * 1000000).toNat = ms.toNat % 1000 * 1000000 := by
    have hlt := Nat.mod_lt ms.toNat (show 1000 > 0 by decide)
    have hmillion : (1000000 : U32).toNat = 1000000 := rfl
    rw [BitVec.toNat_mul, hsub, hmillion]
    exact Nat.mod_eq_of_lt (by omega)
  unfold addTimeMs carryAll
  rw [carrySeconds_nanos]
  simp only [Timespec.nanos, hdiv, hnsec]
  omega

def convertMsToTimespec (ms : U32) : Timespec :=
  let sec : Int := (ms / 1000).toNat
  carryAll { tvSec := sec, tvNsec := (ms.toNat - sec * 1000) * 1000000 }

def convertTimespecToMs (t : Timespec) : U32 :=
  toU32 (t.tvSec * 1000) + toU32 (t.tvNsec.tdiv 1000000)

/-- The later of the two times, first argument on a tie. The division by a
    second's worth of nanoseconds truncates to zero. -/
def maxTimespec (a b : Timespec) : Timespec :=
  if a.tvSec ≥ b.tvSec then
    if a.tvNsec ≥ b.tvNsec then a
    else if a.tvSec - (a.tvNsec - b.tvNsec).tdiv 1000000000 ≥ b.tvSec then a
    else b
  else b

end OpenManet
