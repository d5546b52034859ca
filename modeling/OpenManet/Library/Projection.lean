import OpenManet.Library.Runs

/-!
# Projections

A projection forgets part of a state. A program projects onto another when what
it leaves, projected, is what the other leaves of the projected state: nothing
that is forgotten has had a say in anything that is kept. The rules follow the
constructors of a program, so that a projection is shown operation by operation.

Two runs that differ only in what is forgotten, of the states and of the inputs,
are then compared with the one run of what is kept. `run_agree` is this argument
for machines whose steps project as long as they meet a condition that itself
depends on nothing forgotten.

## Main definitions

* `Prog.Projects`: A program and its projection.

## Theorems

* `Prog.projects_op`, `Prog.projects_read`, `Prog.projects_ite`: The rules.
* `run_agree`: Two runs with one projection of their inputs.
-/

namespace OpenManet

namespace Prog

variable {σ ο κ ρ : Type} {apply : ο → σ → σ} {proj : σ → σ}

/-- Running `p` and projecting is projecting and running `q`. -/
def Projects (apply : ο → σ → σ) (proj : σ → σ) (p q : Prog σ ο κ ρ) (s : σ) : Prop :=
  proj (p.exec apply s).1 = (q.exec apply (proj s)).1

theorem projects_ret (result result' : ρ) (s : σ) :
    Projects apply proj (ret result : Prog σ ο κ ρ) (ret result') s := rfl

theorem projects_op (o o' : ο) (next next' : σ → σ → Prog σ ο κ ρ) (s : σ)
    (hop : proj (apply o s) = apply o' (proj s))
    (hnext : Projects apply proj (next s (apply o s)) (next' (proj s) (proj (apply o s)))
      (apply o s)) :
    Projects apply proj (op o next) (op o' next') s := by
  unfold Projects at hnext ⊢
  rw [exec, exec, hnext, hop]

theorem projects_read (next next' : σ → Prog σ ο κ ρ) (s : σ)
    (hnext : Projects apply proj (next s) (next' (proj s)) s) :
    Projects apply proj (read next) (read next') s := hnext

/-- Deciding on nothing that is forgotten. -/
theorem projects_ite (c c' : Prop) [Decidable c] [Decidable c'] (p p' q q' : Prog σ ο κ ρ) (s : σ)
    (hc : c ↔ c') (hpos : c → Projects apply proj p p' s)
    (hneg : ¬ c → Projects apply proj q q' s) :
    Projects apply proj (if c then p else q) (if c' then p' else q') s := by
  by_cases h : c
  · rw [if_pos h, if_pos (hc.mp h)]
    exact hpos h
  · rw [if_neg h, if_neg (fun h' => h (hc.mpr h'))]
    exact hneg h

theorem projects_lock (k k' : κ) (p q : Prog σ ο κ ρ) (s : σ) (h : Projects apply proj p q s) :
    Projects apply proj (lock k p) (lock k' q) s := h

theorem projects_unlock (k k' : κ) (p q : Prog σ ο κ ρ) (s : σ) (h : Projects apply proj p q s) :
    Projects apply proj (unlock k p) (unlock k' q) s := h

end Prog

section Runs

variable {σ α β : Type}

/-- Runs from states with one projection, over inputs with one projection, end in
    states with one projection. -/
theorem run_agree (step : σ → α → σ) (step' : σ → β → σ) (proj : σ → σ) (forget : α → β)
    (ok : σ → α → Prop)
    (hproj : ∀ s a, ok s a → proj (step s a) = step' (proj s) (forget a))
    (hok : ∀ s t a b, proj s = proj t → forget a = forget b → ok s a → ok t b)
    (s t : σ) (as bs : List α) (hst : proj s = proj t) (hab : as.map forget = bs.map forget)
    (has : AllSteps step ok s as) : proj (run step s as) = proj (run step t bs) := by
  induction as generalizing s t bs with
  | nil =>
      cases bs with
      | nil => exact hst
      | cons b rest => simp only [List.map_nil, List.map_cons, reduceCtorEq] at hab
  | cons a as ih =>
      cases bs with
      | nil => simp only [List.map_nil, List.map_cons, reduceCtorEq] at hab
      | cons b bs =>
          simp only [List.map_cons, List.cons.injEq] at hab
          have hb : ok t b := hok s t a b hst hab.1 has.1
          have hnext : proj (step s a) = proj (step t b) := by
            rw [hproj s a has.1, hproj t b hb, hst, hab.1]
          exact ih _ _ bs hnext hab.2 has.2

end Runs

end OpenManet
