import OpenManet.Core.Handlers

/-!
# The Expiration Thread

`expiration_func` from its first statement on. `expirationFunc` begins where the
thread wakes up; before that the thread reads the clock, subtracts it from the
deadline of its entry and sleeps.

The sleep is `while(nanosleep(&current_time, &current_time));`. The call belongs to
the operating system, so it is a parameter: what it returns and what it leaves in its
argument, which may differ from one call to the next. The loop takes a bound on its
rounds and says nothing when the bound is used up.

## Main definitions

* `Nanosleep`: The system call.
* `sleepLoop`: The loop around it.
* `expirationThread`: The thread, from its start to the end of `expirationFunc`.
-/

namespace OpenManet

/-- `nanosleep(&t, &t)`, by the number of the call: the value returned and what is
    left in `t`. -/
abbrev Nanosleep := Nat → Timespec → Int × Timespec

/-- The loop from call number `call` on, if it ends within so many rounds. -/
def sleepLoop (nanosleep : Nanosleep) : Nat → Nat → Timespec → Option Timespec
  | 0, _, _ => none
  | rounds + 1, call, t =>
    if (nanosleep call t).1 ≠ 0 then sleepLoop nanosleep rounds (call + 1) (nanosleep call t).2
    else some (nanosleep call t).2

/-- The thread of `ownEntry`, started when the clock shows `now`. It wakes up in
    other surroundings and finds the node as it is by then. -/
def expirationThread (nanosleep : Nanosleep) (rounds : Nat) (now : Timespec)
    (ownEntry : RoutingEntry) (awake : Env) (n : Node) : Option Node :=
  (sleepLoop nanosleep rounds 0 (subtractTime now ownEntry.timeOut)).map fun _ =>
    ((expirationFunc awake ownEntry.destIp).exec Op.apply n).1

end OpenManet
