import OpenManet.Library.Runs
import Mathlib.Data.Finset.Max
import Mathlib.Data.Fintype.Defs
import Mathlib.Data.Fintype.Basic

/-!
# Locks Taken in Order

Programs run side by side over one state, each step of one of them being a step of
the whole, and a lock waits until no thread holds the mutex. A deadlock is a
nonempty set of threads each of which waits for a mutex a thread of the set holds;
a thread that waits for one it holds itself is a deadlock alone.

The classical way out is to rank the mutexes and to take them upwards only.
`Prog.Ordered` says that a program does, whatever the other threads do to the state
in between, as long as each state it looks at meets a condition that may depend on
the mutexes it holds then. Runs whose looks meet the condition have no deadlock:
of the waiting threads take the one whose mutex ranks highest, and its holder
waits for a higher one.

## Main definitions

* `Thread`, `Config`: Programs running side by side.
* `threadStep`: One step of one thread.
* `Deadlocked`: The threads of a set wait for each other.
* `Prog.Ordered`: The program takes its mutexes upwards.
* `LooksOk`: A step is no look at a state that fails the condition.

## Theorems

* `threadStep_ordered`: A step keeps every thread ordered.
* `no_deadlock`: Ordered threads do not deadlock.
-/

namespace OpenManet

/-- What a thread has left to do, and the mutexes it holds. -/
structure Thread (σ ο κ ρ : Type) where
  program : Prog σ ο κ ρ
  held : Finset κ

/-- Threads over a shared state. -/
structure Config (ι σ ο κ ρ : Type) where
  shared : σ
  threads : ι → Thread σ ο κ ρ

section Threads

variable {ι σ ο κ ρ : Type} [DecidableEq ι] [DecidableEq κ]

/-- The threads before they have done anything. -/
def Config.start (programs : ι → Prog σ ο κ ρ) (s : σ) : Config ι σ ο κ ρ :=
  { shared := s, threads := fun i => { program := programs i, held := ∅ } }

/-- Thread `i` is now `t`. -/
def Config.setThread (c : Config ι σ ο κ ρ) (i : ι) (t : Thread σ ο κ ρ) : Config ι σ ο κ ρ :=
  { c with threads := fun j => if j = i then t else c.threads j }

/-- Some thread holds the mutex. -/
def Config.Taken (c : Config ι σ ο κ ρ) (k : κ) : Prop := ∃ j, k ∈ (c.threads j).held

instance [Fintype ι] (c : Config ι σ ο κ ρ) (k : κ) : Decidable (c.Taken k) :=
  inferInstanceAs (Decidable (∃ _, _))

/-- One step of one thread. A thread that has returned, or waits for a mutex that is
    taken, does nothing. -/
def threadStep [Fintype ι] (apply : ο → σ → σ) (c : Config ι σ ο κ ρ) (i : ι) :
    Config ι σ ο κ ρ :=
  let held := (c.threads i).held
  match (c.threads i).program with
  | .ret _ => c
  | .op o next =>
    { c with shared := apply o c.shared }.setThread i
      { program := next c.shared (apply o c.shared), held := held }
  | .read next => c.setThread i { program := next c.shared, held := held }
  | .lock k next =>
    if c.Taken k then c else c.setThread i { program := next, held := insert k held }
  | .unlock k next => c.setThread i { program := next, held := held.erase k }

/-- The thread waits for the mutex. -/
def Thread.Wants (t : Thread σ ο κ ρ) (k : κ) : Prop := ∃ next, t.program = .lock k next

/-- Each thread of the nonempty set waits for a mutex that one of the set holds. -/
def Deadlocked (c : Config ι σ ο κ ρ) (waiting : Finset ι) : Prop :=
  waiting.Nonempty ∧ ∀ i ∈ waiting, ∃ k, (c.threads i).Wants k ∧
    ∃ j ∈ waiting, k ∈ (c.threads j).held

/-! ### Programs in order -/

/-- With these mutexes held the program goes on to take mutexes that rank above
    those it holds, if each state it looks at meets the condition. -/
def Prog.Ordered (rank : κ → Nat) (ok : Finset κ → σ → Prop) : Prog σ ο κ ρ → Finset κ → Prop
  | ret _, _ => True
  | op _ next, held => ∀ s s', Ordered rank ok (next s s') held
  | read next, held => ∀ s, ok held s → Ordered rank ok (next s) held
  | lock k next, held => (∀ h ∈ held, rank h < rank k) ∧ Ordered rank ok next (insert k held)
  | unlock k next, held => Ordered rank ok next (held.erase k)

section Rules

variable (rank : κ → Nat) (ok : Finset κ → σ → Prop)

/-- Unlocking the mutex locked last. -/
theorem ordered_unlock (k : κ) (next : Prog σ ο κ ρ) (held : Finset κ) (hk : k ∉ held)
    (h : next.Ordered rank ok held) : Prog.Ordered rank ok (.unlock k next) (insert k held) := by
  simp only [Prog.Ordered, Finset.erase_insert hk]
  exact h

/-- A section between a lock and its unlock. -/
theorem ordered_section (k : κ) (o : ο) (next : σ → σ → Prog σ ο κ ρ) (held : Finset κ)
    (hk : ∀ h ∈ held, rank h < rank k) (h : ∀ s s', (next s s').Ordered rank ok held) :
    Prog.Ordered rank ok (.lock k (.op o fun s s' => .unlock k (next s s'))) held := by
  have hfree : k ∉ held := fun hin => absurd (hk k hin) (Nat.lt_irrefl _)
  exact ⟨hk, fun s s' => ordered_unlock rank ok k (next s s') held hfree (h s s')⟩

omit [DecidableEq κ] in
/-- The first mutex may be any. -/
theorem ordered_first (k : κ) : ∀ h ∈ (∅ : Finset κ), rank h < rank k :=
  fun _ hin => absurd hin (Finset.notMem_empty _)

end Rules

/-! ### Runs of ordered threads -/

/-- The step of the thread is no look at the state, or the state meets the thread's
    condition. -/
def LooksOk (ok : ι → Finset κ → σ → Prop) (c : Config ι σ ο κ ρ) (i : ι) : Prop :=
  match (c.threads i).program with
  | .read _ => ok i (c.threads i).held c.shared
  | _ => True

instance (ok : ι → Finset κ → σ → Prop) [∀ i held s, Decidable (ok i held s)]
    (c : Config ι σ ο κ ρ) (i : ι) : Decidable (LooksOk ok c i) := by
  unfold LooksOk
  cases (c.threads i).program <;> infer_instance

/-- Every thread goes on in order. -/
def AllOrdered (rank : κ → Nat) (ok : ι → Finset κ → σ → Prop) (c : Config ι σ ο κ ρ) : Prop :=
  ∀ i, (c.threads i).program.Ordered rank (ok i) (c.threads i).held

theorem setThread_ordered (rank : κ → Nat) (ok : ι → Finset κ → σ → Prop)
    (c : Config ι σ ο κ ρ) (i : ι) (t : Thread σ ο κ ρ) (hc : AllOrdered rank ok c)
    (ht : t.program.Ordered rank (ok i) t.held) : AllOrdered rank ok (c.setThread i t) := by
  intro j
  simp only [Config.setThread]
  by_cases hj : j = i
  · rw [if_pos hj, hj]
    exact ht
  · rw [if_neg hj]
    exact hc j

theorem threadStep_ordered [Fintype ι] (apply : ο → σ → σ) (rank : κ → Nat)
    (ok : ι → Finset κ → σ → Prop) (c : Config ι σ ο κ ρ) (i : ι) (hc : AllOrdered rank ok c)
    (hok : LooksOk ok c i) : AllOrdered rank ok (threadStep apply c i) := by
  have hi := hc i
  unfold LooksOk at hok
  unfold threadStep
  cases hp : (c.threads i).program with
  | ret result => exact hc
  | op o next =>
      rw [hp] at hi
      exact setThread_ordered rank ok _ i _ hc (hi _ _)
  | read next =>
      rw [hp] at hi hok
      exact setThread_ordered rank ok c i _ hc (hi _ hok)
  -- A thread that has to wait stays where it is.
  | lock k next =>
      rw [hp] at hi
      simp only []
      split
      · exact hc
      · exact setThread_ordered rank ok c i _ hc hi.2
  | unlock k next =>
      rw [hp] at hi
      exact setThread_ordered rank ok c i _ hc hi

/-- The rank of the mutex a thread waits for. -/
def Thread.wantedRank (rank : κ → Nat) (t : Thread σ ο κ ρ) : Nat :=
  match t.program with
  | .lock k _ => rank k
  | _ => 0

omit [DecidableEq κ] in
theorem wantedRank_of_wants (rank : κ → Nat) (t : Thread σ ο κ ρ) (k : κ) (h : t.Wants k) :
    t.wantedRank rank = rank k := by
  rcases h with ⟨next, hnext⟩
  unfold Thread.wantedRank
  rw [hnext]

omit [DecidableEq ι] in
/-- Ordered threads do not deadlock: the holder of the highest mutex waited for
    waits for a higher one. -/
theorem not_deadlocked_of_ordered (rank : κ → Nat) (ok : ι → Finset κ → σ → Prop)
    (c : Config ι σ ο κ ρ) (hc : AllOrdered rank ok c) (waiting : Finset ι) :
    ¬ Deadlocked c waiting := by
  rintro ⟨hne, hwait⟩
  rcases waiting.exists_max_image (fun i => (c.threads i).wantedRank rank) hne with ⟨i, hi, hmax⟩
  rcases hwait i hi with ⟨k, hk, j, hj, hholds⟩
  rcases hwait j hj with ⟨k', hk', -⟩
  have hle := hmax j hj
  rw [wantedRank_of_wants rank _ k hk, wantedRank_of_wants rank _ k' hk'] at hle
  rcases hk' with ⟨next, hnext⟩
  have hordered := hc j
  rw [hnext] at hordered
  exact absurd (hordered.1 k hholds) (Nat.not_lt_of_ge hle)

/-- In a run of threads that take their mutexes in order as long as what they look
    at meets their conditions, and whose looks do, no threads deadlock. -/
theorem no_deadlock [Fintype ι] (apply : ο → σ → σ) (rank : κ → Nat)
    (ok : ι → Finset κ → σ → Prop) (programs : ι → Prog σ ο κ ρ)
    (hordered : ∀ i, (programs i).Ordered rank (ok i) ∅) (s : σ) (schedule : List ι)
    (hok : AllSteps (threadStep apply) (LooksOk ok) (Config.start programs s) schedule)
    (waiting : Finset ι) :
    ¬ Deadlocked (run (threadStep apply) (Config.start programs s) schedule) waiting := by
  have hstart : AllOrdered rank ok (Config.start programs s) := hordered
  exact not_deadlocked_of_ordered rank ok _
    (run_invariant (threadStep apply) (LooksOk ok) (AllOrdered rank ok)
      (fun c i hc hi => threadStep_ordered apply rank ok c i hc hi) _ schedule hstart hok)
    waiting

end Threads

end OpenManet
