import Mathlib.Data.Finset.Basic

/-!
# Programs over Shared State

A program is what a thread has left to do: it has returned, or it is about to
perform an atomic operation on the shared state, to look at the state, or to
lock or unlock a mutex. Programs are finite trees, so a program that is always
granted its locks ends.

`exec` runs a program alone with every lock granted. `Meets` says that every
operation it performs meets a condition in the state it is performed in, and
`exec_invariant` is the rule that goes with it: to show that a program keeps an
invariant it is enough to look at each operation, never at the program. A run of
whole programs, one after the other, is a run of the step function `exec`
induces, and `run_exec_invariant` lifts the rule to it.

## Main definitions

* `Prog`: Programs over a state, operations, mutexes and results.
* `Prog.exec`: Running a program alone.
* `Prog.Meets`: Every operation performed meets a condition.
* `Prog.Performs`: Some operation performed does.

## Theorems

* `Prog.exec_invariant`: What every operation keeps, the program keeps.
* `Prog.exec_relation`: A relation every operation extends holds across the
  program.
* `Prog.Meets.imp`, `Prog.Meets.and`, `Prog.meets_of_forall`: Weakening and
  combining conditions.
* `Prog.Meets.with_invariant`: What every operation keeps is there for each of them.
* `Prog.exec_of_performs`: What one operation brings about and the others keep.
-/

namespace OpenManet

/-- A program over states `σ`, operations `ο`, mutexes `κ` and results `ρ`. -/
inductive Prog (σ ο κ ρ : Type) where
  | ret (result : ρ)
  /-- Perform an operation; what follows may depend on the state before and
      after it. -/
  | op (o : ο) (next : σ → σ → Prog σ ο κ ρ)
  /-- Look at the state. -/
  | read (next : σ → Prog σ ο κ ρ)
  | lock (k : κ) (next : Prog σ ο κ ρ)
  | unlock (k : κ) (next : Prog σ ο κ ρ)

namespace Prog

variable {σ ο κ ρ : Type}

/-- Runs the program alone, every lock granted. -/
def exec (apply : ο → σ → σ) : Prog σ ο κ ρ → σ → σ × ρ
  | ret result, s => (s, result)
  | op o next, s => exec apply (next s (apply o s)) (apply o s)
  | read next, s => exec apply (next s) s
  | lock _ next, s => exec apply next s
  | unlock _ next, s => exec apply next s

/-- Every operation the program performs, run alone, meets the condition. -/
def Meets (apply : ο → σ → σ) (ok : ο → σ → Prop) : Prog σ ο κ ρ → σ → Prop
  | ret _, _ => True
  | op o next, s => ok o s ∧ Meets apply ok (next s (apply o s)) (apply o s)
  | read next, s => Meets apply ok (next s) s
  | lock _ next, s => Meets apply ok next s
  | unlock _ next, s => Meets apply ok next s

/-- Whether a run alone meets a decidable condition can be computed. -/
instance decidableMeets (apply : ο → σ → σ) (ok : ο → σ → Prop) [∀ o s, Decidable (ok o s)]
    (p : Prog σ ο κ ρ) (s : σ) : Decidable (p.Meets apply ok s) :=
  match p with
  | ret _ => isTrue trivial
  | op o next =>
    have := decidableMeets apply ok (next s (apply o s)) (apply o s)
    inferInstanceAs (Decidable (ok o s ∧ _))
  | read next => decidableMeets apply ok (next s) s
  | lock _ next => decidableMeets apply ok next s
  | unlock _ next => decidableMeets apply ok next s

theorem exec_invariant (apply : ο → σ → σ) (ok : ο → σ → Prop) (inv : σ → Prop)
    (hop : ∀ o s, inv s → ok o s → inv (apply o s)) (p : Prog σ ο κ ρ) (s : σ)
    (hs : inv s) (hok : p.Meets apply ok s) : inv (p.exec apply s).1 := by
  induction p generalizing s with
  | ret result => exact hs
  | op o next ih => exact ih s (apply o s) (apply o s) (hop o s hs hok.1) hok.2
  | read next ih => exact ih s s hs hok
  | lock k next ih => exact ih s hs hok
  | unlock k next ih => exact ih s hs hok

/-- A reflexive and transitive relation that holds across every operation holds
    across the program. -/
theorem exec_relation (apply : ο → σ → σ) (ok : ο → σ → Prop) (rel : σ → σ → Prop)
    (hrefl : ∀ s, rel s s) (htrans : ∀ s t u, rel s t → rel t u → rel s u)
    (hop : ∀ o s, ok o s → rel s (apply o s)) (p : Prog σ ο κ ρ) (s : σ)
    (hok : p.Meets apply ok s) : rel s (p.exec apply s).1 := by
  induction p generalizing s with
  | ret result => exact hrefl s
  | op o next ih =>
      exact htrans _ _ _ (hop o s hok.1) (ih s (apply o s) (apply o s) hok.2)
  | read next ih => exact ih s s hok
  | lock k next ih => exact ih s hok
  | unlock k next ih => exact ih s hok

theorem Meets.imp {apply : ο → σ → σ} {ok ok' : ο → σ → Prop}
    (h : ∀ o s, ok o s → ok' o s) (p : Prog σ ο κ ρ) (s : σ)
    (hok : p.Meets apply ok s) : p.Meets apply ok' s := by
  induction p generalizing s with
  | ret result => trivial
  | op o next ih => exact ⟨h o s hok.1, ih s (apply o s) (apply o s) hok.2⟩
  | read next ih => exact ih s s hok
  | lock k next ih => exact ih s hok
  | unlock k next ih => exact ih s hok

theorem Meets.and {apply : ο → σ → σ} {ok ok' : ο → σ → Prop} (p : Prog σ ο κ ρ) (s : σ)
    (h : p.Meets apply ok s) (h' : p.Meets apply ok' s) :
    p.Meets apply (fun o s => ok o s ∧ ok' o s) s := by
  induction p generalizing s with
  | ret result => trivial
  | op o next ih => exact ⟨⟨h.1, h'.1⟩, ih s (apply o s) (apply o s) h.2 h'.2⟩
  | read next ih => exact ih s s h h'
  | lock k next ih => exact ih s h h'
  | unlock k next ih => exact ih s h h'

/-- An invariant every operation keeps is at hand for each operation. -/
theorem Meets.with_invariant {apply : ο → σ → σ} {ok : ο → σ → Prop} (inv : σ → Prop)
    (hop : ∀ o s, inv s → ok o s → inv (apply o s)) (p : Prog σ ο κ ρ) (s : σ) (hs : inv s)
    (hok : p.Meets apply ok s) : p.Meets apply (fun o s => ok o s ∧ inv s) s := by
  induction p generalizing s with
  | ret result => trivial
  | op o next ih =>
      exact ⟨⟨hok.1, hs⟩, ih s (apply o s) (apply o s) (hop o s hs hok.1) hok.2⟩
  | read next ih => exact ih s s hs hok
  | lock k next ih => exact ih s hs hok
  | unlock k next ih => exact ih s hs hok

/-- Some operation the program performs, run alone, is as described. -/
def Performs (apply : ο → σ → σ) (P : ο → σ → Prop) : Prog σ ο κ ρ → σ → Prop
  | ret _, _ => False
  | op o next, s => P o s ∨ Performs apply P (next s (apply o s)) (apply o s)
  | read next, s => Performs apply P (next s) s
  | lock _ next, s => Performs apply P next s
  | unlock _ next, s => Performs apply P next s

/-- Whether a run alone performs a decidable operation can be computed. -/
instance decidablePerforms (apply : ο → σ → σ) (P : ο → σ → Prop) [∀ o s, Decidable (P o s)]
    (p : Prog σ ο κ ρ) (s : σ) : Decidable (p.Performs apply P s) :=
  match p with
  | ret _ => isFalse id
  | op o next =>
    have := decidablePerforms apply P (next s (apply o s)) (apply o s)
    inferInstanceAs (Decidable (P o s ∨ _))
  | read next => decidablePerforms apply P (next s) s
  | lock _ next => decidablePerforms apply P next s
  | unlock _ next => decidablePerforms apply P next s

/-- The operation performed meets the condition every one of them does. -/
theorem exists_of_performs {apply : ο → σ → σ} {P ok : ο → σ → Prop} (p : Prog σ ο κ ρ) (s : σ)
    (h : p.Performs apply P s) (hok : p.Meets apply ok s) : ∃ o s', P o s' ∧ ok o s' := by
  induction p generalizing s with
  | ret result => exact absurd h id
  | op o next ih =>
      rcases h with hnow | hlater
      · exact ⟨o, s, hnow, hok.1⟩
      · exact ih s (apply o s) (apply o s) hlater hok.2
  | read next ih => exact ih s s h hok
  | lock k next ih => exact ih s h hok
  | unlock k next ih => exact ih s h hok

/-- What an operation brings about and every operation after it keeps is there in
    the end. -/
theorem exec_of_performs (apply : ο → σ → σ) (P ok : ο → σ → Prop) (inv : σ → Prop)
    (hestablish : ∀ o s, P o s → ok o s → inv (apply o s))
    (hop : ∀ o s, inv s → ok o s → inv (apply o s)) (p : Prog σ ο κ ρ) (s : σ)
    (h : p.Performs apply P s) (hok : p.Meets apply ok s) : inv (p.exec apply s).1 := by
  induction p generalizing s with
  | ret result => exact absurd h id
  | op o next ih =>
      rcases h with hnow | hlater
      · exact exec_invariant apply ok inv hop (next s (apply o s)) (apply o s)
          (hestablish o s hnow hok.1) hok.2
      · exact ih s (apply o s) (apply o s) hlater hok.2
  | read next ih => exact ih s s h hok
  | lock k next ih => exact ih s h hok
  | unlock k next ih => exact ih s h hok

/-- A condition that always holds is met by every program. -/
theorem meets_of_forall (apply : ο → σ → σ) {ok : ο → σ → Prop} (h : ∀ o s, ok o s)
    (p : Prog σ ο κ ρ) (s : σ) : p.Meets apply ok s := by
  induction p generalizing s with
  | ret result => trivial
  | op o next ih => exact ⟨h o s, ih s (apply o s) (apply o s)⟩
  | read next ih => exact ih s s
  | lock k next ih => exact ih s
  | unlock k next ih => exact ih s

end Prog

end OpenManet
