import OpenManet.Library.Program

/-!
# Locks a Program Holds

What becomes of the mutexes when a program runs alone. The mutexes are not
recursive: locking one that is held already blocks for ever, so such an execution
never returns. `lockRun` follows an execution and keeps the set of mutexes held
and whether one was ever unlocked without being held.

`GivesBack` is the obligation of a program that has to leave nothing locked. It
speaks of executions that return only. The rules below have one case for each
kind of step and one for a section between a lock and its unlock.

## Main definitions

* `LockState`: The mutexes held, and whether an unlock went wrong.
* `Prog.lockRun`: The locks at the end of an execution, if it ends.
* `GivesBack`: No mutex is left held and none unlocked without being held.

## Theorems

* `Prog.lockRun_section`: What a section leaves locked.
* `givesBack_ret`, `givesBack_op`, `givesBack_read`, `givesBack_lock`,
  `givesBack_unlock`, `givesBack_section`: The rules.
-/

namespace OpenManet

/-- The mutexes held, and whether one was unlocked that was not. -/
structure LockState (κ : Type) where
  held : Finset κ
  wrong : Bool

namespace Prog

variable {σ ο κ ρ : Type} [DecidableEq κ]

/-- The locks at the end of the program run alone; there is no end when it locks a
    mutex it holds. -/
def lockRun (apply : ο → σ → σ) : Prog σ ο κ ρ → σ → LockState κ → Option (LockState κ)
  | ret _, _, l => some l
  | op o next, s, l => lockRun apply (next s (apply o s)) (apply o s) l
  | read next, s, l => lockRun apply (next s) s l
  | lock k next, s, l =>
    if k ∈ l.held then none else lockRun apply next s { l with held := insert k l.held }
  | unlock k next, s, l =>
    lockRun apply next s { held := l.held.erase k, wrong := l.wrong || k ∉ l.held }

/-- One operation between a lock and its unlock, with nothing locked before. -/
theorem lockRun_section (apply : ο → σ → σ) (k : κ) (o : ο) (next : σ → σ → Prog σ ο κ ρ) (s : σ) :
    (Prog.lock k (.op o fun s s' => .unlock k (next s s'))).lockRun apply s
        { held := ∅, wrong := false } =
      (next s (apply o s)).lockRun apply (apply o s) { held := ∅, wrong := false } := by
  simp only [lockRun, Finset.notMem_empty, if_false, Finset.mem_insert_self, not_true,
    decide_false, Bool.or_false, not_false_eq_true, Finset.erase_insert]

end Prog

section Rules

variable {σ ο κ ρ : Type} [DecidableEq κ] (apply : ο → σ → σ)

/-- Started with these mutexes held, the program returns with none held, if it
    returns, and has not unlocked one it did not hold. -/
def GivesBack (p : Prog σ ο κ ρ) (s : σ) (held : Finset κ) : Prop :=
  ∀ l, p.lockRun apply s { held := held, wrong := false } = some l → l.held = ∅ ∧ l.wrong = false

theorem givesBack_ret (result : ρ) (s : σ) :
    GivesBack apply (.ret result : Prog σ ο κ ρ) s ∅ := by
  intro l hl
  cases hl
  exact ⟨rfl, rfl⟩

theorem givesBack_op (o : ο) (next : σ → σ → Prog σ ο κ ρ) (s : σ) (held : Finset κ)
    (h : GivesBack apply (next s (apply o s)) (apply o s) held) :
    GivesBack apply (.op o next) s held := h

theorem givesBack_read (next : σ → Prog σ ο κ ρ) (s : σ) (held : Finset κ)
    (h : GivesBack apply (next s) s held) : GivesBack apply (.read next) s held := h

/-- Locking a mutex that is held already is no return. -/
theorem givesBack_lock (k : κ) (next : Prog σ ο κ ρ) (s : σ) (held : Finset κ)
    (h : k ∉ held → GivesBack apply next s (insert k held)) :
    GivesBack apply (.lock k next) s held := by
  intro l hl
  simp only [Prog.lockRun] at hl
  by_cases hk : k ∈ held
  · rw [if_pos hk] at hl
    cases hl
  · rw [if_neg hk] at hl
    exact h hk l hl

theorem givesBack_unlock (k : κ) (next : Prog σ ο κ ρ) (s : σ) (held : Finset κ)
    (hk : k ∈ held) (h : GivesBack apply next s (held.erase k)) :
    GivesBack apply (.unlock k next) s held := by
  intro l hl
  simp only [Prog.lockRun, hk, not_true, decide_false, Bool.or_false] at hl
  exact h l hl

/-- Unlocking the mutex locked last. -/
theorem givesBack_unlock_insert (k : κ) (next : Prog σ ο κ ρ) (s : σ) (held : Finset κ)
    (hk : k ∉ held) (h : GivesBack apply next s held) :
    GivesBack apply (.unlock k next) s (insert k held) :=
  givesBack_unlock apply k next s _ (Finset.mem_insert_self k held)
    ((Finset.erase_insert hk).symm ▸ h)

/-- One operation between a lock and its unlock. -/
theorem givesBack_section (k : κ) (o : ο) (next : σ → σ → Prog σ ο κ ρ) (s : σ) (held : Finset κ)
    (h : GivesBack apply (next s (apply o s)) (apply o s) held) :
    GivesBack apply (.lock k (.op o fun s s' => .unlock k (next s s'))) s held :=
  givesBack_lock apply k _ s held
    (fun hk => givesBack_unlock_insert apply k (next s (apply o s)) (apply o s) held hk h)

/-- A program that locks a mutex it holds does not return. -/
theorem givesBack_blocked (k : κ) (next : Prog σ ο κ ρ) (s : σ) (held : Finset κ) (hk : k ∈ held) :
    GivesBack apply (.lock k next) s held :=
  givesBack_lock apply k next s held (fun hnot => absurd hk hnot)

end Rules

end OpenManet
