import OpenManet.Library.Program

/-!
# Runs of a Step Function

A machine is a total step function on states and inputs; a run feeds it a list
of inputs. `AllSteps ok` says that every step of a run, taken with the state it
is taken in, meets `ok`, and `run_invariant` is the one induction over runs:
what the good steps keep holds wherever a run of good steps ends. Every state a
run passes through is where one of its prefixes ends, so a statement about the
end of every run is a statement about every state reached.

Where a step executes a program, `run_exec_invariant` goes from the operations
of the programs to the run in one step.

## Main definitions

* `run`: The state after a list of inputs.
* `AllSteps`: Every step of a run meets a condition.
* `programStep`: The step that executes the program an input stands for.

## Theorems

* `run_append`, `allSteps_append`: Runs over a concatenation.
* `run_invariant`: What every good step keeps holds after a good run.
* `run_exec_invariant`: The same for what every good operation keeps.
* `allSteps_of_forall`, `allSteps_of_mem`: A condition that always holds, and one on the
  inputs of the run, holds of every step.
* `AllSteps.with_invariant`: What the good steps keep is there for each of them.
* `allSteps_congr`: Two conditions that agree wherever a good run comes.
* `AllSteps.imp`, `allSteps_and`, `allSteps_iff`: Conditions taken step by step.
-/

namespace OpenManet

section Runs

variable {σ α : Type}

/-- The state after feeding a list of inputs to the machine. -/
def run (step : σ → α → σ) (s : σ) (inputs : List α) : σ := inputs.foldl step s

/-- Every step of the run meets the condition in the state it is taken in. -/
def AllSteps (step : σ → α → σ) (ok : σ → α → Prop) : σ → List α → Prop
  | _, [] => True
  | s, a :: rest => ok s a ∧ AllSteps step ok (step s a) rest

instance decidableAllSteps (step : σ → α → σ) (ok : σ → α → Prop) [∀ s a, Decidable (ok s a)]
    (s : σ) (inputs : List α) : Decidable (AllSteps step ok s inputs) :=
  match inputs with
  | [] => isTrue trivial
  | a :: rest =>
    have := decidableAllSteps step ok (step s a) rest
    inferInstanceAs (Decidable (ok s a ∧ _))

@[simp] theorem run_nil (step : σ → α → σ) (s : σ) : run step s [] = s := rfl

@[simp] theorem run_cons (step : σ → α → σ) (s : σ) (a : α) (rest : List α) :
    run step s (a :: rest) = run step (step s a) rest := rfl

theorem run_append (step : σ → α → σ) (s : σ) (l₁ l₂ : List α) :
    run step s (l₁ ++ l₂) = run step (run step s l₁) l₂ := List.foldl_append

theorem allSteps_append (step : σ → α → σ) (ok : σ → α → Prop) (s : σ) (l₁ l₂ : List α) :
    AllSteps step ok s (l₁ ++ l₂) ↔
      AllSteps step ok s l₁ ∧ AllSteps step ok (run step s l₁) l₂ := by
  induction l₁ generalizing s with
  | nil => simp only [List.nil_append, AllSteps, run_nil, true_and]
  | cons a rest ih => simp only [List.cons_append, AllSteps, run_cons, ih, and_assoc]

theorem allSteps_of_forall (step : σ → α → σ) {ok : σ → α → Prop} (h : ∀ s a, ok s a) (s : σ)
    (inputs : List α) : AllSteps step ok s inputs := by
  induction inputs generalizing s with
  | nil => trivial
  | cons a rest ih => exact ⟨h s a, ih (step s a)⟩

theorem allSteps_of_mem (step : σ → α → σ) {ok : α → Prop} (s : σ) (inputs : List α)
    (h : ∀ a ∈ inputs, ok a) : AllSteps step (fun _ a => ok a) s inputs := by
  induction inputs generalizing s with
  | nil => trivial
  | cons a rest ih =>
      exact ⟨h a List.mem_cons_self, ih (step s a) fun b hb => h b (List.mem_cons_of_mem a hb)⟩

/-- The induction over runs: an invariant every good step keeps. -/
theorem run_invariant (step : σ → α → σ) (ok : σ → α → Prop) (inv : σ → Prop)
    (hstep : ∀ s a, inv s → ok s a → inv (step s a)) (s : σ) (inputs : List α)
    (hs : inv s) (hok : AllSteps step ok s inputs) : inv (run step s inputs) := by
  induction inputs generalizing s with
  | nil => exact hs
  | cons a rest ih => exact ih (step s a) (hstep s a hs hok.1) hok.2

/-- An invariant of the good steps is at hand for each step of a good run. -/
theorem AllSteps.with_invariant (step : σ → α → σ) (ok : σ → α → Prop) (inv : σ → Prop)
    (hstep : ∀ s a, inv s → ok s a → inv (step s a)) (s : σ) (inputs : List α)
    (hs : inv s) (hok : AllSteps step ok s inputs) :
    AllSteps step (fun s a => ok s a ∧ inv s) s inputs := by
  induction inputs generalizing s with
  | nil => trivial
  | cons a rest ih => exact ⟨⟨hok.1, hs⟩, ih (step s a) (hstep s a hs hok.1) hok.2⟩

/-- Conditions that agree under an invariant of the steps that meet them hold of the
    same runs. -/
theorem allSteps_congr (step : σ → α → σ) (ok ok' : σ → α → Prop) (inv : σ → Prop)
    (hiff : ∀ s a, inv s → (ok s a ↔ ok' s a)) (hstep : ∀ s a, inv s → ok s a → inv (step s a))
    (s : σ) (inputs : List α) (hs : inv s) :
    AllSteps step ok s inputs ↔ AllSteps step ok' s inputs := by
  induction inputs generalizing s with
  | nil => exact Iff.rfl
  | cons a rest ih =>
      constructor
      · rintro ⟨hok, hrest⟩
        exact ⟨(hiff s a hs).mp hok, (ih (step s a) (hstep s a hs hok)).mp hrest⟩
      · rintro ⟨hok', hrest⟩
        have hok := (hiff s a hs).mpr hok'
        exact ⟨hok, (ih (step s a) (hstep s a hs hok)).mpr hrest⟩

theorem AllSteps.imp (step : σ → α → σ) {ok ok' : σ → α → Prop} (himp : ∀ s a, ok s a → ok' s a)
    (s : σ) (inputs : List α) (h : AllSteps step ok s inputs) : AllSteps step ok' s inputs := by
  induction inputs generalizing s with
  | nil => trivial
  | cons a rest ih => exact ⟨himp s a h.1, ih (step s a) h.2⟩

theorem allSteps_and (step : σ → α → σ) (ok ok' : σ → α → Prop) (s : σ) (inputs : List α) :
    AllSteps step (fun s a => ok s a ∧ ok' s a) s inputs ↔
      AllSteps step ok s inputs ∧ AllSteps step ok' s inputs := by
  induction inputs generalizing s with
  | nil => exact iff_of_true trivial ⟨trivial, trivial⟩
  | cons a rest ih => simp only [AllSteps, ih, and_and_and_comm]

/-- Conditions that agree at every step of a run hold of it together. -/
theorem allSteps_iff (step : σ → α → σ) (ok ok' : σ → α → Prop) (s : σ) (inputs : List α)
    (h : AllSteps step (fun s a => ok s a ↔ ok' s a) s inputs) :
    AllSteps step ok s inputs ↔ AllSteps step ok' s inputs := by
  induction inputs generalizing s with
  | nil => exact Iff.rfl
  | cons a rest ih => exact and_congr h.1 (ih (step s a) h.2)

end Runs

section ProgramRuns

variable {σ ο κ ρ α : Type}

/-- The step of a machine whose inputs stand for programs. -/
def programStep (apply : ο → σ → σ) (program : α → Prog σ ο κ ρ) (s : σ) (a : α) : σ :=
  ((program a).exec apply s).1

/-- An invariant every good operation keeps holds after every run whose programs
    perform good operations only. -/
theorem run_exec_invariant (apply : ο → σ → σ) (program : α → Prog σ ο κ ρ)
    (ok : ο → σ → Prop) (inv : σ → Prop)
    (hop : ∀ o s, inv s → ok o s → inv (apply o s)) (s : σ) (inputs : List α) (hs : inv s)
    (hok : AllSteps (programStep apply program) (fun s a => (program a).Meets apply ok s)
      s inputs) :
    inv (run (programStep apply program) s inputs) :=
  run_invariant _ _ inv
    (fun s a hs hok => Prog.exec_invariant apply ok inv hop (program a) s hs hok) s inputs hs hok

end ProgramRuns

end OpenManet
