import OpenManet.Library.Runs

/-!
# Shadows

A shadow is a second state that goes along with the operations of a program. Every
operation performed moves it, given the state the operation is performed in, and no
program looks at it. So a run with its shadow is the run it would be alone, and the
shadow tells something the state does not keep: what the operations cost, or what they
would do to a finer picture of the state.

An invariant of both is shown operation by operation, as one of the state alone is.

## Main definitions

* `Prog.shadow`: The shadow after a program.
* `shadowStep`: A step of a machine and its shadow.

## Theorems

* `Prog.shadow_invariant`: What every operation keeps of both, a program keeps.
* `run_shadow_state`: The machine runs as it does alone.
* `run_shadow_invariant`: What every operation keeps of both holds after every run.
-/

namespace OpenManet

variable {σ γ ο κ ρ α : Type}

/-- The shadow after the program, run alone, has gone through its operations. -/
def Prog.shadow (apply : ο → σ → σ) (move : ο → σ → γ → γ) : Prog σ ο κ ρ → σ → γ → γ
  | .ret _, _, g => g
  | .op o next, s, g => shadow apply move (next s (apply o s)) (apply o s) (move o s g)
  | .read next, s, g => shadow apply move (next s) s g
  | .lock _ next, s, g => shadow apply move next s g
  | .unlock _ next, s, g => shadow apply move next s g

theorem Prog.shadow_invariant (apply : ο → σ → σ) (move : ο → σ → γ → γ) (ok : ο → σ → Prop)
    (inv : σ → γ → Prop)
    (hop : ∀ o s g, inv s g → ok o s → inv (apply o s) (move o s g)) (p : Prog σ ο κ ρ) (s : σ)
    (g : γ) (hs : inv s g) (hok : p.Meets apply ok s) :
    inv (p.exec apply s).1 (p.shadow apply move s g) := by
  induction p generalizing s g with
  | ret result => exact hs
  | op o next ih => exact ih s (apply o s) (apply o s) (move o s g) (hop o s g hs hok.1) hok.2
  | read next ih => exact ih s s g hs hok
  | lock k next ih => exact ih s g hs hok
  | unlock k next ih => exact ih s g hs hok

/-- The machine takes its step, and the shadow goes along. -/
def shadowStep (apply : ο → σ → σ) (program : α → Prog σ ο κ ρ) (move : ο → σ → γ → γ)
    (c : σ × γ) (a : α) : σ × γ :=
  (programStep apply program c.1 a, (program a).shadow apply move c.1 c.2)

theorem run_shadow_state (apply : ο → σ → σ) (program : α → Prog σ ο κ ρ) (move : ο → σ → γ → γ)
    (s : σ) (g : γ) (inputs : List α) :
    (run (shadowStep apply program move) (s, g) inputs).1 =
      run (programStep apply program) s inputs := by
  induction inputs generalizing s g with
  | nil => rfl
  | cons a rest ih => exact ih _ _

theorem run_shadow_invariant (apply : ο → σ → σ) (program : α → Prog σ ο κ ρ)
    (move : ο → σ → γ → γ) (inv : σ → γ → Prop)
    (hop : ∀ o s g, inv s g → inv (apply o s) (move o s g)) (s : σ) (g : γ) (inputs : List α)
    (hs : inv s g) :
    inv (run (shadowStep apply program move) (s, g) inputs).1
      (run (shadowStep apply program move) (s, g) inputs).2 :=
  run_invariant _ (fun _ _ => True) (fun c => inv c.1 c.2)
    (fun c a hc _ => Prog.shadow_invariant apply move (fun _ _ => True) inv
      (fun o s g hs _ => hop o s g hs) (program a) c.1 c.2 hc
      (Prog.meets_of_forall apply (fun _ _ => trivial) (program a) c.1))
    (s, g) inputs hs (allSteps_of_forall _ (fun _ _ => trivial) _ inputs)

end OpenManet
