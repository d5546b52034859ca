import OpenManet.Library.LockOrder

/-!
# What a Thread Does Once

Programs running side by side, looked at from one thread. `Prog.Move` is what a
thread can do next and what it has left then; `threadStep_move` says that a step of
the whole is a move of its thread over the shared state, or nothing at all.

A program that performs operations of one kind only, and a program that in addition
may perform a single operation of another kind, stay such programs through every
move, whatever the other threads do to the state in between.

## Main definitions

* `Prog.Move`: The next operation, if any, and the rest of the program.
* `Prog.Every`: Every operation is of a kind.
* `Prog.Once`: At most one operation is of another kind.

## Theorems

* `threadStep_move`: A step of the whole is a move of its thread.
* `every_move`, `once_move`: What a move leaves of such programs.
-/

namespace OpenManet

namespace Prog

variable {σ ο κ ρ : Type}

/-- In this state the program can go on so: with an operation, or with none. -/
inductive Move (apply : ο → σ → σ) (s : σ) :
    Prog σ ο κ ρ → Option ο → Prog σ ο κ ρ → Prop where
  | op (o : ο) (next : σ → σ → Prog σ ο κ ρ) :
      Move apply s (.op o next) (some o) (next s (apply o s))
  | read (next : σ → Prog σ ο κ ρ) : Move apply s (.read next) none (next s)
  | lock (k : κ) (next : Prog σ ο κ ρ) : Move apply s (.lock k next) none next
  | unlock (k : κ) (next : Prog σ ο κ ρ) : Move apply s (.unlock k next) none next

/-- Every operation the program can perform is of the kind. -/
def Every (P : ο → Prop) : Prog σ ο κ ρ → Prop
  | ret _ => True
  | op o next => P o ∧ ∀ s s', Every P (next s s')
  | read next => ∀ s, Every P (next s)
  | lock _ next | unlock _ next => Every P next

/-- The program can perform one operation of the first kind, and otherwise
    performs operations of the second. -/
def Once (P Q : ο → Prop) : Prog σ ο κ ρ → Prop
  | ret _ => True
  | op o next => (P o ∧ ∀ s s', Every Q (next s s')) ∨ (Q o ∧ ∀ s s', Once P Q (next s s'))
  | read next => ∀ s, Once P Q (next s)
  | lock _ next | unlock _ next => Once P Q next

variable {apply : ο → σ → σ} {s : σ} {p p' : Prog σ ο κ ρ} {o? : Option ο}

theorem every_move (P : ο → Prop) (hp : p.Every P) (hmove : Move apply s p o? p') :
    (∀ o, o? = some o → P o) ∧ p'.Every P := by
  cases hmove with
  | op o next =>
      refine ⟨fun o' ho => ?_, hp.2 s _⟩
      cases ho
      exact hp.1
  | read next => exact ⟨(fun _ ho => by cases ho), hp s⟩
  | lock k | unlock k => exact ⟨(fun _ ho => by cases ho), hp⟩

/-- A move performs the one operation, or leaves it to be performed. -/
theorem once_move (P Q : ο → Prop) (hp : p.Once P Q) (hmove : Move apply s p o? p') :
    (∃ o, o? = some o ∧ P o ∧ p'.Every Q) ∨ ((∀ o, o? = some o → Q o) ∧ p'.Once P Q) := by
  cases hmove with
  | op o next =>
      rcases hp with ⟨ho, hnext⟩ | ⟨ho, hnext⟩
      · exact Or.inl ⟨o, rfl, ho, hnext s _⟩
      · refine Or.inr ⟨fun o' ho' => ?_, hnext s _⟩
        cases ho'
        exact ho
  | read next => exact Or.inr ⟨(fun _ ho => by cases ho), hp s⟩
  | lock k | unlock k => exact Or.inr ⟨(fun _ ho => by cases ho), hp⟩

end Prog

section Threads

variable {ι σ ο κ ρ : Type} [DecidableEq ι] [DecidableEq κ] [Fintype ι]

/-- The state after the operation of a move, if it has one. -/
def afterMove (apply : ο → σ → σ) (o? : Option ο) (s : σ) : σ :=
  match o? with
  | none => s
  | some o => apply o s

/-- A step of one thread does nothing, or is a move of it that leaves the other
    threads alone. -/
theorem threadStep_move (apply : ο → σ → σ) (c : Config ι σ ο κ ρ) (i : ι) :
    threadStep apply c i = c ∨
      ∃ o?, Prog.Move apply c.shared (c.threads i).program o?
          ((threadStep apply c i).threads i).program ∧
        (threadStep apply c i).shared = afterMove apply o? c.shared ∧
        ∀ j, j ≠ i → (threadStep apply c i).threads j = c.threads j := by
  have hset : ∀ (c' : Config ι σ ο κ ρ) t, ((c'.setThread i t).threads i) = t :=
    fun c' t => if_pos rfl
  have hother : ∀ (c' : Config ι σ ο κ ρ) t j, j ≠ i →
      (c'.setThread i t).threads j = c'.threads j := fun c' t j hj => if_neg hj
  unfold threadStep
  cases hp : (c.threads i).program with
  | ret result => exact Or.inl rfl
  | op o next =>
      refine Or.inr ⟨some o, ?_, rfl, hother _ _⟩
      simp only [hset]
      exact .op o next
  | read next =>
      refine Or.inr ⟨none, ?_, rfl, hother c _⟩
      simp only [hset]
      exact .read next
  | lock k next =>
      simp only []
      by_cases htaken : c.Taken k
      · -- A lock that is taken makes the thread wait, and nothing moves.
        rw [if_pos htaken]
        exact Or.inl rfl
      · rw [if_neg htaken]
        refine Or.inr ⟨none, ?_, rfl, hother c _⟩
        rw [hset]
        exact .lock k next
  | unlock k next =>
      refine Or.inr ⟨none, ?_, rfl, hother c _⟩
      simp only [hset]
      exact .unlock k next

end Threads

end OpenManet
