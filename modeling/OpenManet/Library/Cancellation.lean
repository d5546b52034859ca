import OpenManet.Library.Runs
import Mathlib.Data.Set.Insert

/-!
# Threads That End Each Other

Programs run side by side over one state. An operation may start a thread or cancel one.
A thread that is cancelled runs on until the cancellation is delivered, and is then ended
wherever it stands: the mutexes it has locked stay locked, and nobody is left to unlock
them. So a mutex remembers who has locked it, and is lost when that thread is there no
more.

Which mutexes a thread holds can be told from what it has left to do, if its program
keeps a `Discipline`. The discipline says which mutexes a routine may lock, what it may
do while it holds them, and that it gives back all of them before it returns. A program
is followed through whatever the other threads do to the state in between: it is only
promised that what it sees later is related by `later` to what it has seen.

`lost_step` then says how a mutex gets lost at all: by the delivery that ends the thread
which holds it.

## Main definitions

* `Threading`: The routines, their operations, and which of these start or cancel threads.
* `Pool`, `poolStep`: Threads running side by side.
* `Discipline`, `Prog.Keeps`: What programs keep to.
* `Prog.Unlocks`: A program has a mutex to unlock.
* `Pool.Ends`: A thread is ended.
* `Pool.Lost`: A mutex whose holder was ended.
* `Handles`, `Pool.Knows`: Where the ids of threads are kept.

## Theorems

* `poolStep_kept`: In every pool the threads keep the discipline.
* `lost_step`: How a mutex gets lost.
* `recoverable_iff`: Whoever holds a mutex that is not lost goes on to unlock it.
* `poolStep_knows`: The ids kept are of threads that run what they should.
-/

namespace OpenManet

/-- What an operation does to the threads. -/
inductive Control (τ : Type) where
  | nothing
  | start (routine : τ)
  /-- The thread is cancelled. -/
  | stop (id : Nat)

/-- Routines `τ` over a state `σ`, with operations `ο` and mutexes `κ`. Threads are
    started from outside by `α`, and a step may read `ω` from outside. -/
structure Threading (α ω τ σ ο κ : Type) where
  /-- The program of a routine; its result is the routine the thread goes on with. -/
  program : τ → Prog σ ο κ (Option τ)
  called : α → τ
  /-- The effect of an operation, given the id a thread started now would get. -/
  apply : ω → Nat → ο → σ → σ
  control : ο → σ → Control τ

/-- A thread that is there. -/
structure Worker (τ σ ο κ : Type) where
  routine : τ
  program : Prog σ ο κ (Option τ)

structure Pool (τ σ ο κ : Type) where
  shared : σ
  threads : Nat → Option (Worker τ σ ο κ)
  /-- Who has locked the mutex and not unlocked it. -/
  owner : κ → Option Nat
  /-- The thread is to be ended, which may be some steps later. -/
  cancelled : Nat → Bool
  /-- The id of the next thread; ids are not used twice. -/
  next : Nat

inductive PoolInput (α ω : Type) where
  | call (a : α)
  /-- The thread takes its next step. -/
  | advance (i : Nat) (world : ω)
  /-- The thread is ended, if it has been cancelled. -/
  | deliver (i : Nat)

section Pools

variable {α ω τ σ ο κ : Type}

namespace Pool

/-- Before any thread. -/
def start (s : σ) : Pool τ σ ο κ :=
  { shared := s, threads := fun _ => none, owner := fun _ => none, cancelled := fun _ => false
    next := 1 }

/-- Thread `i` is now `w`. -/
def set (i : Nat) (w : Option (Worker τ σ ο κ)) (c : Pool τ σ ο κ) : Pool τ σ ο κ :=
  { c with threads := fun j => if j = i then w else c.threads j }

/-- Thread `i` is to be ended, or not. -/
def mark (i : Nat) (b : Bool) (c : Pool τ σ ο κ) : Pool τ σ ο κ :=
  { c with cancelled := fun j => if j = i then b else c.cancelled j }

/-- A thread is started. -/
def begin (m : Threading α ω τ σ ο κ) (routine : τ) (c : Pool τ σ ο κ) : Pool τ σ ο κ :=
  { (c.set c.next (some { routine := routine, program := m.program routine })).mark c.next false
    with next := c.next + 1 }

def control (m : Threading α ω τ σ ο κ) (effect : Control τ) (c : Pool τ σ ο κ) : Pool τ σ ο κ :=
  match effect with
  | .nothing => c
  | .start routine => c.begin m routine
  | .stop id => c.mark id true

section Locks

variable [DecidableEq κ]

def setOwner (k : κ) (i : Option Nat) (c : Pool τ σ ο κ) : Pool τ σ ο κ :=
  { c with owner := fun k' => if k' = k then i else c.owner k' }

/-- The next step of thread `i`, which is `w`. It waits for a mutex that is taken. -/
def advance (m : Threading α ω τ σ ο κ) (i : Nat) (world : ω) (w : Worker τ σ ο κ)
    (c : Pool τ σ ο κ) : Pool τ σ ο κ :=
  match w.program with
  | .ret none => c.set i none
  | .ret (some routine) => c.set i (some { routine := routine, program := m.program routine })
  | .op o next =>
    let after := m.apply world c.next o c.shared
    ({ c with shared := after }.set i (some { w with program := next c.shared after })).control m
      (m.control o c.shared)
  | .read next => c.set i (some { w with program := next c.shared })
  | .lock k next =>
    if c.owner k = none then (c.set i (some { w with program := next })).setOwner k (some i) else c
  | .unlock k next => (c.set i (some { w with program := next })).setOwner k none

end Locks

/-- The mutexes a thread holds. -/
def heldBy (i : Nat) (c : Pool τ σ ο κ) : Set κ := {k | c.owner k = some i}

/-- The mutex was locked by a thread that is there no more. -/
def Lost (k : κ) (c : Pool τ σ ο κ) : Prop := ∃ i, c.owner k = some i ∧ c.threads i = none

/-- The input ends thread `j`, which is there. -/
structure Ends (input : PoolInput α ω) (j : Nat) (victim : Worker τ σ ο κ)
    (c : Pool τ σ ο κ) : Prop where
  input : input = .deliver j
  cancelled : c.cancelled j = true
  victim : c.threads j = some victim

end Pool

def poolStep [DecidableEq κ] (m : Threading α ω τ σ ο κ) (c : Pool τ σ ο κ)
    (input : PoolInput α ω) : Pool τ σ ο κ :=
  match input with
  | .call a => c.begin m (m.called a)
  | .advance i world =>
    match c.threads i with
    | none => c
    | some w => c.advance m i world w
  | .deliver i => if c.cancelled i then c.set i none else c

/-! ### Disciplined programs -/

/-- What the programs of the routines keep to. -/
structure Discipline (m : Threading α ω τ σ ο κ) where
  /-- What the state may have become when a thread sees it again. -/
  later : σ → σ → Prop
  later_refl : ∀ s, later s s
  later_trans : ∀ s t u, later s t → later t u → later s u
  later_apply : ∀ world id o s, later s (m.apply world id o s)
  /-- The mutexes a routine may lock. -/
  mutexes : τ → Set κ
  /-- The routine may lock a mutex while it holds another. -/
  nests : τ → Prop
  /-- The operation is allowed to the routine that holds these mutexes. -/
  allows : τ → Set κ → σ → ο → Prop
  /-- The routine may go on with another. -/
  goesOn : τ → τ → Prop

variable {m : Threading α ω τ σ ο κ}

/-- The program of the routine, holding these mutexes in this state, keeps to the
    discipline. Where it waits for a mutex it holds itself it never goes on. -/
def Prog.Keeps (d : Discipline m) (r : τ) :
    Prog σ ο κ (Option τ) → σ → Set κ → Prop
  | ret result, _, held => held = ∅ ∧ ∀ r', result = some r' → d.goesOn r r'
  | op o next, s, held => ∀ s', d.later s s' → d.allows r held s' o ∧
      ∀ world id, Keeps d r (next s' (m.apply world id o s')) (m.apply world id o s') held
  | read next, s, held => ∀ s', d.later s s' → Keeps d r (next s') s' held
  | lock k next, s, held => k ∈ d.mutexes r ∧ (held = ∅ ∨ d.nests r) ∧
      (k ∉ held → Keeps d r next s (insert k held))
  | unlock k next, s, held => k ∈ held ∧ Keeps d r next s (held \ {k})

/-- Run alone from here, holding these mutexes, the program comes to unlock the mutex,
    unless it waits for one it holds itself. -/
def Prog.Unlocks (m : Threading α ω τ σ ο κ) (k : κ) :
    Prog σ ο κ (Option τ) → σ → Set κ → Prop
  | ret _, _, _ => False
  | op o next, s, held =>
    ∀ world id, Unlocks m k (next s (m.apply world id o s)) (m.apply world id o s) held
  | read next, s, held => Unlocks m k (next s) s held
  | lock k' next, s, held => k' ∉ held → Unlocks m k next s (insert k' held)
  | unlock k' next, s, held => k' = k ∨ Unlocks m k next s (held \ {k'})

section Programs

variable (d : Discipline m) (r : τ) (p : Prog σ ο κ (Option τ)) (s : σ) (held : Set κ)

/-- The discipline is kept whatever has happened in between. -/
theorem Prog.Keeps.later (s' : σ) (h : p.Keeps d r s held) (hlater : d.later s s') :
    p.Keeps d r s' held := by
  induction p generalizing held with
  | ret result => exact h
  | op o next ih => exact fun t ht => h t (d.later_trans _ _ _ hlater ht)
  | read next ih => exact fun t ht => h t (d.later_trans _ _ _ hlater ht)
  | lock k next ih => exact ⟨h.1, h.2.1, fun hk => ih _ (h.2.2 hk)⟩
  | unlock k next ih => exact ⟨h.1, ih _ h.2⟩

theorem keeps_unlocks (h : p.Keeps d r s held) (k : κ) (hk : k ∈ held) :
    p.Unlocks m k s held := by
  induction p generalizing s held with
  | ret result =>
      rw [h.1] at hk
      exact hk
  | op o next ih =>
      exact fun world id => ih _ _ _ _ ((h s (d.later_refl s)).2 world id) hk
  | read next ih => exact ih _ _ _ (h s (d.later_refl s)) hk
  | lock k' next ih => exact fun hk' => ih _ _ (h.2.2 hk') (Set.mem_insert_of_mem _ hk)
  | unlock k' next ih =>
      by_cases hsame : k' = k
      · exact Or.inl hsame
      · exact Or.inr (ih _ _ h.2 ⟨hk, Ne.symm hsame⟩)

end Programs

/-! ### Pools of disciplined threads -/

/-- Every thread keeps the discipline with the mutexes it holds, and ids not yet given
    away are not in use. -/
structure Pool.Kept (d : Discipline m) (c : Pool τ σ ο κ) : Prop where
  keeps : ∀ i w, c.threads i = some w → w.program.Keeps d w.routine c.shared (c.heldBy i)
  mutexes : ∀ i w, c.threads i = some w → c.heldBy i ⊆ d.mutexes w.routine
  fresh : ∀ i, c.next ≤ i → c.threads i = none
  freshOwner : ∀ k i, c.owner k = some i → i < c.next

section Kept

variable (d : Discipline m)

theorem start_kept (s : σ) : (Pool.start s : Pool τ σ ο κ).Kept d := by
  constructor
  · intro i w hw
    cases hw
  · intro i w hw
    cases hw
  · exact fun _ _ => rfl
  · intro k i hk
    cases hk

/-- Who is there when a thread has ended was there before. -/
theorem threads_set_none (c : Pool τ σ ο κ) (j i : Nat) (w : Worker τ σ ο κ)
    (h : (c.set j none).threads i = some w) : c.threads i = some w := by
  simp only [Pool.set] at h
  split at h
  · cases h
  · exact h

theorem set_none_kept (c : Pool τ σ ο κ) (hc : c.Kept d) (j : Nat) : (c.set j none).Kept d := by
  constructor
  · exact fun i w hw => hc.keeps i w (threads_set_none c j i w hw)
  · exact fun i w hw => hc.mutexes i w (threads_set_none c j i w hw)
  · intro i hi
    simp only [Pool.set]
    split
    · rfl
    · exact hc.fresh i hi
  · exact hc.freshOwner

theorem begin_kept (hprograms : ∀ r s, (m.program r).Keeps d r s ∅) (c : Pool τ σ ο κ)
    (hc : c.Kept d) (r : τ) : (c.begin m r).Kept d := by
  -- Nobody can hold anything under an id that has not been given out.
  have hfree : c.heldBy c.next = ∅ := by
    refine Set.eq_empty_of_forall_notMem (fun k hk => ?_)
    exact absurd (hc.freshOwner k c.next hk) (Nat.lt_irrefl _)
  constructor
  · intro i w hw
    simp only [Pool.begin, Pool.mark, Pool.set] at hw
    split at hw
    · rename_i hi
      cases hw
      subst hi
      show Prog.Keeps d r (m.program r) c.shared (c.heldBy c.next)
      rw [hfree]
      exact hprograms r c.shared
    · exact hc.keeps i w hw
  · intro i w hw
    simp only [Pool.begin, Pool.mark, Pool.set] at hw
    split at hw
    · rename_i hi
      subst hi
      show c.heldBy c.next ⊆ _
      rw [hfree]
      exact Set.empty_subset _
    · exact hc.mutexes i w hw
  · intro i hi
    have hi' : c.next + 1 ≤ i := hi
    simp only [Pool.begin, Pool.mark, Pool.set]
    rw [if_neg (by omega)]
    exact hc.fresh i (by omega)
  · exact fun k i hk => Nat.lt_succ_of_lt (hc.freshOwner k i hk)

theorem control_kept (hprograms : ∀ r s, (m.program r).Keeps d r s ∅) (c : Pool τ σ ο κ)
    (hc : c.Kept d) (effect : Control τ) : (c.control m effect).Kept d := by
  cases effect with
  | nothing => exact hc
  | start r => exact begin_kept d hprograms c hc r
  | stop j => exact ⟨hc.keeps, hc.mutexes, hc.fresh, hc.freshOwner⟩

/-- One thread goes on, and the others hold what they held. -/
theorem update_kept (c c' : Pool τ σ ο κ) (hc : c.Kept d) (i : Nat) (w w' : Worker τ σ ο κ)
    (hw : c.threads i = some w)
    (hthreads : ∀ j, c'.threads j = if j = i then some w' else c.threads j)
    (hnext : c'.next = c.next) (hlater : d.later c.shared c'.shared)
    (hkeeps : w'.program.Keeps d w'.routine c'.shared (c'.heldBy i))
    (hmutexes : c'.heldBy i ⊆ d.mutexes w'.routine)
    (hothers : ∀ j, j ≠ i → c'.heldBy j = c.heldBy j) : c'.Kept d := by
  have hi : i < c.next := by
    refine Nat.lt_of_not_le (fun hle => ?_)
    rw [hc.fresh i hle] at hw
    cases hw
  constructor
  · intro j v hv
    rw [hthreads] at hv
    by_cases hj : j = i
    · rw [if_pos hj, Option.some.injEq] at hv
      rw [← hv, hj]
      exact hkeeps
    · -- The others stand where they stood, in a state that is later.
      rw [if_neg hj] at hv
      rw [hothers j hj]
      exact (hc.keeps j v hv).later d _ _ _ _ c'.shared hlater
  · intro j v hv
    rw [hthreads] at hv
    by_cases hj : j = i
    · rw [if_pos hj, Option.some.injEq] at hv
      rw [← hv, hj]
      exact hmutexes
    · rw [if_neg hj] at hv
      rw [hothers j hj]
      exact hc.mutexes j v hv
  · intro j hj
    rw [hnext] at hj
    rw [hthreads, if_neg (by omega)]
    exact hc.fresh j hj
  · intro k j hk
    rw [hnext]
    by_cases hj : j = i
    · rw [hj]
      exact hi
    · have hold : k ∈ c.heldBy j := hothers j hj ▸ hk
      exact hc.freshOwner k j hold

variable [DecidableEq κ]

theorem heldBy_lock (c : Pool τ σ ο κ) (k : κ) (i : Nat) (hfree : c.owner k = none) (j : Nat) :
    (c.setOwner k (some i)).heldBy j = if j = i then insert k (c.heldBy j) else c.heldBy j := by
  refine Set.ext fun k' => ?_
  show (if k' = k then some i else c.owner k') = some j ↔ _
  by_cases hj : j = i
  · rw [if_pos hj]
    show _ ↔ k' = k ∨ c.owner k' = some j
    by_cases hk : k' = k
    · rw [if_pos hk, hj]
      exact ⟨fun _ => Or.inl hk, fun _ => rfl⟩
    · rw [if_neg hk]
      exact ⟨fun h => Or.inr h, fun h => h.resolve_left hk⟩
  · rw [if_neg hj]
    show _ ↔ c.owner k' = some j
    by_cases hk : k' = k
    · -- The mutex was free, so no other thread had it.
      rw [if_pos hk, hk, hfree, Option.some.injEq]
      exact ⟨fun h => absurd h.symm hj, fun h => absurd h.symm (Option.some_ne_none j)⟩
    · rw [if_neg hk]

theorem heldBy_unlock (c : Pool τ σ ο κ) (k : κ) (i : Nat) (hmine : c.owner k = some i) (j : Nat) :
    (c.setOwner k none).heldBy j = if j = i then c.heldBy j \ {k} else c.heldBy j := by
  refine Set.ext fun k' => ?_
  show (if k' = k then none else c.owner k') = some j ↔ _
  by_cases hj : j = i
  · rw [if_pos hj]
    show _ ↔ c.owner k' = some j ∧ k' ≠ k
    by_cases hk : k' = k
    · rw [if_pos hk]
      exact ⟨fun h => absurd h.symm (Option.some_ne_none j), fun h => absurd hk h.2⟩
    · rw [if_neg hk]
      exact ⟨fun h => ⟨h, hk⟩, fun h => h.1⟩
  · rw [if_neg hj]
    show _ ↔ c.owner k' = some j
    by_cases hk : k' = k
    · rw [if_pos hk, hk, hmine, Option.some.injEq]
      exact ⟨fun h => absurd h.symm (Option.some_ne_none j), fun h => absurd h.symm hj⟩
    · rw [if_neg hk]

theorem advance_kept (hprograms : ∀ r s, (m.program r).Keeps d r s ∅) (c : Pool τ σ ο κ)
    (hc : c.Kept d) (i : Nat) (world : ω) (w : Worker τ σ ο κ) (hw : c.threads i = some w) :
    (c.advance m i world w).Kept d := by
  have hkeeps := hc.keeps i w hw
  have hmutexes := hc.mutexes i w hw
  unfold Pool.advance
  cases hp : w.program with
  | ret result =>
      rw [hp] at hkeeps
      cases result with
      | none => exact set_none_kept d c hc i
      | some r =>
          -- It goes on with nothing held.
          have hheld : c.heldBy i = ∅ := hkeeps.1
          refine update_kept d c _ hc i w { routine := r, program := m.program r } hw
            (fun _ => rfl) rfl (d.later_refl _) ?_ ?_ (fun _ _ => rfl)
          · show (m.program r).Keeps d r c.shared (c.heldBy i)
            rw [hheld]
            exact hprograms r c.shared
          · show c.heldBy i ⊆ _
            rw [hheld]
            exact Set.empty_subset _
  | op o next =>
      rw [hp] at hkeeps
      have hnow := (hkeeps c.shared (d.later_refl _)).2 world c.next
      refine control_kept d hprograms _ ?_ _
      exact update_kept d c _ hc i w
        { w with program := next c.shared (m.apply world c.next o c.shared) } hw (fun _ => rfl) rfl
        (d.later_apply world c.next o c.shared) hnow hmutexes (fun _ _ => rfl)
  | read next =>
      rw [hp] at hkeeps
      exact update_kept d c _ hc i w { w with program := next c.shared } hw (fun _ => rfl) rfl
        (d.later_refl _) (hkeeps c.shared (d.later_refl _)) hmutexes (fun _ _ => rfl)
  | lock k next =>
      rw [hp] at hkeeps
      simp only []
      split
      · rename_i hfree
        have hnot : k ∉ c.heldBy i := by
          intro hk
          cases hfree.symm.trans hk
        have hheld := heldBy_lock (c.set i (some { w with program := next })) k i hfree
        refine update_kept d c _ hc i w { w with program := next } hw (fun _ => rfl) rfl
          (d.later_refl _) ?_ ?_ (fun j hj => ?_)
        · rw [hheld, if_pos rfl]
          exact hkeeps.2.2 hnot
        · rw [hheld, if_pos rfl]
          exact Set.insert_subset hkeeps.1 hmutexes
        · rw [hheld, if_neg hj]
          rfl
      · exact hc
  | unlock k next =>
      rw [hp] at hkeeps
      have hheld := heldBy_unlock (c.set i (some { w with program := next })) k i hkeeps.1
      refine update_kept d c _ hc i w { w with program := next } hw (fun _ => rfl) rfl
        (d.later_refl _) ?_ ?_ (fun j hj => ?_)
      · simp only [hheld, if_pos]
        exact hkeeps.2
      · simp only [hheld, if_pos]
        exact Set.sdiff_subset.trans hmutexes
      · simp only [hheld, if_neg hj]
        rfl

/-- In every pool whose routines keep the discipline the threads do. -/
theorem poolStep_kept (hprograms : ∀ r s, (m.program r).Keeps d r s ∅) (c : Pool τ σ ο κ)
    (hc : c.Kept d) (input : PoolInput α ω) : (poolStep m c input).Kept d := by
  cases input with
  | call a => exact begin_kept d hprograms c hc (m.called a)
  | advance i world =>
      simp only [poolStep]
      cases hw : c.threads i with
      | none => exact hc
      | some w => exact advance_kept d hprograms c hc i world w hw
  | deliver i =>
      simp only [poolStep]
      split
      · exact set_none_kept d c hc i
      · exact hc

theorem poolStep_later (c : Pool τ σ ο κ) (input : PoolInput α ω) :
    d.later c.shared (poolStep m c input).shared := by
  cases input with
  | call a => exact d.later_refl _
  | advance i world =>
      simp only [poolStep]
      cases c.threads i with
      | none => exact d.later_refl _
      | some w =>
          simp only [Pool.advance]
          cases w.program with
          | ret result =>
              cases result with
              | none => exact d.later_refl _
              | some r => exact d.later_refl _
          | op o next =>
              -- Only an operation changes what is shared, whatever it does to threads.
              simp only []
              cases m.control o c.shared with
              | nothing => exact d.later_apply world c.next o c.shared
              | start r => exact d.later_apply world c.next o c.shared
              | stop j => exact d.later_apply world c.next o c.shared
          | read next => exact d.later_refl _
          | lock k next =>
              simp only []
              split
              · exact d.later_refl _
              · exact d.later_refl _
          | unlock k next => exact d.later_refl _
  | deliver i =>
      simp only [poolStep]
      split
      · exact d.later_refl _
      · exact d.later_refl _

/-! ### Mutexes that are lost -/

omit [DecidableEq κ] in
theorem lost_set (c : Pool τ σ ο κ) (i : Nat) (w : Worker τ σ ο κ) (k : κ)
    (h : (c.set i (some w)).Lost k) : c.Lost k := by
  rcases h with ⟨j, howner, hgone⟩
  refine ⟨j, howner, ?_⟩
  simp only [Pool.set] at hgone
  split at hgone
  · cases hgone
  · exact hgone

omit [DecidableEq κ] in
theorem lost_begin (c : Pool τ σ ο κ) (r : τ) (k : κ) (h : (c.begin m r).Lost k) : c.Lost k :=
  lost_set c c.next _ k h

omit [DecidableEq κ] in
/-- Whoever is cancelled is still there. -/
theorem lost_control (c : Pool τ σ ο κ) (effect : Control τ) (k : κ)
    (h : (c.control m effect).Lost k) : c.Lost k := by
  cases effect with
  | nothing => exact h
  | start r => exact lost_begin c r k h
  | stop j => exact h

/-- A mutex is lost by the delivery that ends the thread which holds it. -/
theorem lost_step (c : Pool τ σ ο κ) (hc : c.Kept d) (input : PoolInput α ω) (k : κ)
    (h : (poolStep m c input).Lost k) :
    c.Lost k ∨ ∃ j victim, c.Ends input j victim ∧ c.owner k = some j := by
  cases input with
  | call a => exact Or.inl (lost_begin c (m.called a) k h)
  | deliver i =>
      simp only [poolStep] at h
      split at h
      · rename_i hcancelled
        -- The holder was gone already, or it is the thread that is ended.
        rcases h with ⟨j, howner, hgone⟩
        cases hvictim : c.threads j with
        | none => exact Or.inl ⟨j, howner, hvictim⟩
        | some victim =>
            simp only [Pool.set] at hgone
            split at hgone
            · rename_i hj
              subst hj
              exact Or.inr ⟨j, victim, ⟨rfl, hcancelled, hvictim⟩, howner⟩
            · exact absurd (hvictim.symm.trans hgone) (Option.some_ne_none _)
      · exact Or.inl h
  | advance i world =>
      simp only [poolStep] at h
      cases hw : c.threads i with
      | none =>
          rw [hw] at h
          exact Or.inl h
      | some w =>
          rw [hw] at h
          simp only [Pool.advance] at h
          have hkeeps := hc.keeps i w hw
          cases hp : w.program with
          | ret result =>
              rw [hp] at hkeeps h
              cases result with
              | none =>
                  -- A thread that returns holds nothing.
                  rcases h with ⟨j, howner, hgone⟩
                  refine Or.inl ⟨j, howner, ?_⟩
                  simp only [Pool.set] at hgone
                  split at hgone
                  · rename_i hj
                    have hmem : k ∈ c.heldBy i := hj ▸ howner
                    rw [hkeeps.1] at hmem
                    exact absurd hmem (Set.notMem_empty k)
                  · exact hgone
              | some r => exact Or.inl (lost_set c i _ k h)
          | op o next =>
              rw [hp] at h
              have hset := lost_control _ _ k h
              exact Or.inl
                (lost_set { c with shared := m.apply world c.next o c.shared } i _ k hset)
          | read next =>
              rw [hp] at h
              exact Or.inl (lost_set c i _ k h)
          | lock k' next =>
              rw [hp] at h
              simp only [] at h
              split at h
              · rcases h with ⟨j, howner, hgone⟩
                simp only [Pool.setOwner, Pool.set] at howner hgone
                split at hgone
                · cases hgone
                · rename_i hj
                  split at howner
                  · exact absurd (Option.some.inj howner).symm hj
                  · exact Or.inl ⟨j, howner, hgone⟩
              · exact Or.inl h
          | unlock k' next =>
              rw [hp] at h
              rcases h with ⟨j, howner, hgone⟩
              simp only [Pool.setOwner, Pool.set] at howner hgone
              split at howner
              · cases howner
              · split at hgone
                · cases hgone
                · exact Or.inl ⟨j, howner, hgone⟩

/-- Whoever holds one of the mutexes is there and goes on to unlock it. -/
def Pool.Recoverable (m : Threading α ω τ σ ο κ) (live : σ → κ → Prop) (c : Pool τ σ ο κ) : Prop :=
  ∀ k, live c.shared k → ∀ i, c.owner k = some i →
    ∃ w, c.threads i = some w ∧ w.program.Unlocks m k c.shared (c.heldBy i)

omit [DecidableEq κ] in
theorem recoverable_iff (live : σ → κ → Prop) (c : Pool τ σ ο κ) (hc : c.Kept d) :
    c.Recoverable m live ↔ ∀ k, live c.shared k → ¬ c.Lost k := by
  constructor
  · rintro hrecoverable k hlive ⟨i, howner, hgone⟩
    rcases hrecoverable k hlive i howner with ⟨w, hw, -⟩
    cases hgone.symm.trans hw
  · intro hkept k hlive i howner
    cases hw : c.threads i with
    | none => exact absurd ⟨i, howner, hw⟩ (hkept k hlive)
    | some w =>
        exact ⟨w, rfl, keeps_unlocks d w.routine w.program c.shared _ (hc.keeps i w hw) k howner⟩

end Kept

/-! ### Handles -/

/-- Places `η` of the state where the ids of threads are kept: an operation leaves an id,
    clears it, or writes there the id of the thread it starts. A thread is cancelled by an
    id that is kept. -/
structure Handles (d : Discipline m) (η : Type) where
  id : η → σ → Nat
  /-- What the threads kept there may run. -/
  runs : η → τ → Prop
  apply_id : ∀ world new o s h, id h (m.apply world new o s) = id h s ∨
    id h (m.apply world new o s) = 0 ∨
    (id h (m.apply world new o s) = new ∧ ∃ r, m.control o s = .start r ∧ runs h r)
  stops : ∀ o s j, m.control o s = .stop j → ∃ h, id h s = j
  goesOn : ∀ h r r', runs h r → d.goesOn r r' → runs h r'

/-- The threads whose ids are kept run what they should, and so do those that were
    cancelled, whose ids may be kept no longer. -/
structure Pool.Knows {d : Discipline m} {η : Type} (H : Handles d η) (c : Pool τ σ ο κ) : Prop where
  zero : c.threads 0 = none
  pos : 0 < c.next
  old : ∀ h, H.id h c.shared < c.next
  runs : ∀ h w, c.threads (H.id h c.shared) = some w → H.runs h w.routine
  cancelled : ∀ j w, c.cancelled j = true → c.threads j = some w → ∃ h, H.runs h w.routine

section Handles

variable {d : Discipline m} {η : Type} (H : Handles d η)

theorem knows_set (c : Pool τ σ ο κ) (hc : c.Knows H) (i : Nat) (w w' : Worker τ σ ο κ)
    (hw : c.threads i = some w)
    (hroutine : ∀ h, H.runs h w.routine → H.runs h w'.routine) :
    (c.set i (some w')).Knows H := by
  have hi : i ≠ 0 := by
    rintro rfl
    cases hc.zero.symm.trans hw
  refine ⟨(if_neg (Ne.symm hi)).trans hc.zero, hc.pos, hc.old, fun h v hv => ?_,
    fun j v hcancelled hv => ?_⟩
  · simp only [Pool.set] at hv
    split at hv
    · rename_i hid
      cases hv
      exact hroutine h (hc.runs h w (hid ▸ hw))
    · exact hc.runs h v hv
  · simp only [Pool.set] at hv
    split at hv
    · rename_i hj
      cases hv
      rcases hc.cancelled j w hcancelled (hj ▸ hw) with ⟨h, hr⟩
      exact ⟨h, hroutine h hr⟩
    · exact hc.cancelled j v hcancelled hv

theorem knows_set_none (c : Pool τ σ ο κ) (hc : c.Knows H) (j : Nat) :
    (c.set j none).Knows H := by
  refine ⟨?_, hc.pos, hc.old, fun h v hv => hc.runs h v (threads_set_none c j _ v hv),
    fun i v hcancelled hv => hc.cancelled i v hcancelled (threads_set_none c j i v hv)⟩
  simp only [Pool.set]
  split
  · rfl
  · exact hc.zero

/-- A thread that has just been started is not cancelled. -/
theorem knows_begin (c : Pool τ σ ο κ) (hc : c.Knows H) (r : τ) : (c.begin m r).Knows H := by
  refine ⟨?_, Nat.succ_pos _, fun h => Nat.lt_succ_of_lt (hc.old h), fun h v hv => ?_,
    fun j v hcancelled hv => ?_⟩
  · simp only [Pool.begin, Pool.mark, Pool.set]
    rw [if_neg (Nat.ne_of_lt hc.pos)]
    exact hc.zero
  · simp only [Pool.begin, Pool.mark, Pool.set] at hv
    rw [if_neg (Nat.ne_of_lt (hc.old h))] at hv
    exact hc.runs h v hv
  · simp only [Pool.begin, Pool.mark, Pool.set] at hcancelled hv
    by_cases hj : j = c.next
    · rw [if_pos hj] at hcancelled
      cases hcancelled
    · rw [if_neg hj] at hcancelled hv
      exact hc.cancelled j v hcancelled hv

/-- A thread whose id is kept is cancelled. -/
theorem knows_mark (c : Pool τ σ ο κ) (hc : c.Knows H) (j : Nat)
    (hj : ∀ w, c.threads j = some w → ∃ h, H.runs h w.routine) : (c.mark j true).Knows H := by
  refine ⟨hc.zero, hc.pos, hc.old, hc.runs, fun i v hcancelled hv => ?_⟩
  simp only [Pool.mark] at hcancelled
  split at hcancelled
  · rename_i hi
    exact hj v (hi ▸ hv)
  · exact hc.cancelled i v hcancelled hv

theorem knows_setOwner [DecidableEq κ] (c : Pool τ σ ο κ) (hc : c.Knows H) (k : κ)
    (i : Option Nat) : (c.setOwner k i).Knows H :=
  ⟨hc.zero, hc.pos, hc.old, hc.runs, hc.cancelled⟩

/-- Ids that are left or cleared. -/
theorem knows_shared (c : Pool τ σ ο κ) (hc : c.Knows H) (s : σ)
    (hid : ∀ h, H.id h s = H.id h c.shared ∨ H.id h s = 0) :
    Pool.Knows H { c with shared := s } := by
  refine ⟨hc.zero, hc.pos, fun h => ?_, fun h v hv => ?_, hc.cancelled⟩
  · show H.id h s < c.next
    rcases hid h with hsame | hzero
    · rw [hsame]
      exact hc.old h
    · rw [hzero]
      exact hc.pos
  · have hv' : c.threads (H.id h s) = some v := hv
    rcases hid h with hsame | hzero
    · rw [hsame] at hv'
      exact hc.runs h v hv'
    · rw [hzero] at hv'
      cases hc.zero.symm.trans hv'

/-- The id of the thread an operation starts is written where such a thread belongs. -/
theorem knows_op (c : Pool τ σ ο κ) (hc : c.Knows H) (i : Nat) (w w' : Worker τ σ ο κ)
    (hw : c.threads i = some w) (hroutine : w'.routine = w.routine) (world : ω) (o : ο) :
    ((({ c with shared := m.apply world c.next o c.shared }).set i (some w')).control m
      (m.control o c.shared)).Knows H := by
  have hsame : ∀ h, H.runs h w.routine → H.runs h w'.routine := by
    intro h hr
    rw [hroutine]
    exact hr
  have hset := knows_set H c hc i w w' hw hsame
  have happly := H.apply_id world c.next o c.shared
  -- Nothing but the start of a thread writes an id that is new.
  have hshared : (∀ r, m.control o c.shared ≠ .start r) →
      Pool.Knows H { c.set i (some w') with shared := m.apply world c.next o c.shared } := by
    intro hnone
    refine knows_shared H (c.set i (some w')) hset _ (fun h => ?_)
    rcases happly h with hid | hid | ⟨-, r, hstart, -⟩
    · exact Or.inl hid
    · exact Or.inr hid
    · exact absurd hstart (hnone r)
  cases heffect : m.control o c.shared with
  | nothing => exact hshared fun r hstart => by cases heffect.symm.trans hstart
  | stop j =>
      refine knows_mark H _ (hshared fun r hstart => by cases heffect.symm.trans hstart) j ?_
      -- Its id was kept when the operation was called.
      intro v hv
      rcases H.stops o c.shared j heffect with ⟨h, hid⟩
      exact ⟨h, hset.runs h v (hid ▸ hv)⟩
  | start r =>
      have hbegin := knows_begin H (c.set i (some w')) hset r (m := m)
      refine ⟨hbegin.zero, hbegin.pos, fun h => ?_, fun h v hv => ?_, hbegin.cancelled⟩
      · show H.id h (m.apply world c.next o c.shared) < c.next + 1
        rcases happly h with hid | hid | ⟨hid, -⟩
        · rw [hid]
          exact Nat.lt_succ_of_lt (hc.old h)
        · rw [hid]
          exact Nat.succ_pos _
        · rw [hid]
          exact Nat.lt_succ_self _
      · have hv' : ((c.set i (some w')).begin m r).threads
            (H.id h (m.apply world c.next o c.shared)) = some v := hv
        rcases happly h with hid | hid | ⟨hid, r', hstart, hruns⟩
        · rw [hid] at hv'
          exact hbegin.runs h v hv'
        · rw [hid] at hv'
          cases hbegin.zero.symm.trans hv'
        · rw [hid] at hv'
          cases Control.start.inj (heffect.symm.trans hstart)
          cases (if_pos rfl).symm.trans hv'
          exact hruns

/-- In every pool the threads whose ids are kept run what they should. -/
theorem poolStep_knows [DecidableEq κ] (c : Pool τ σ ο κ) (hkept : c.Kept d) (hc : c.Knows H)
    (input : PoolInput α ω) : (poolStep m c input).Knows H := by
  cases input with
  | call a => exact knows_begin H c hc (m.called a)
  | advance i world =>
      simp only [poolStep]
      cases hw : c.threads i with
      | none => exact hc
      | some w =>
          have hkeeps := hkept.keeps i w hw
          -- A thread that goes on in its program runs the same routine.
          have hgoes : ∀ program, (c.set i (some { w with program := program })).Knows H :=
            fun program => knows_set H c hc i w { w with program := program } hw (fun _ hr => hr)
          simp only [Pool.advance]
          cases hp : w.program with
          | ret result =>
              rw [hp] at hkeeps
              cases result with
              | none => exact knows_set_none H c hc i
              | some r =>
                  -- A loop of the same thread belongs where the thread does.
                  refine knows_set H c hc i w { routine := r, program := m.program r } hw
                    (fun h hr => ?_)
                  exact H.goesOn h w.routine r hr (hkeeps.2 r rfl)
          | op o next =>
              exact knows_op H c hc i w
                { w with program := next c.shared (m.apply world c.next o c.shared) } hw rfl world o
          | read next => exact hgoes _
          | lock k next =>
              simp only []
              split
              · exact knows_setOwner H _ (hgoes next) k (some i)
              · exact hc
          | unlock k next => exact knows_setOwner H _ (hgoes next) k none
  | deliver i =>
      simp only [poolStep]
      split
      · exact knows_set_none H c hc i
      · exact hc

end Handles

end Pools

end OpenManet
