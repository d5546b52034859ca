import Mathlib.Data.List.Nodup
import Mathlib.Logic.Function.Basic

/-!
# Tickets

Parties draw tickets from a counter and hand them in later. A ticket is drawn by
moving the counter up to it, so a ticket ranks above all drawn before. Then no two
parties hold the same ticket and none is handed in twice, in whatever order tickets
are drawn and handed in.

The rank says in which order the counter passes the tickets, which for numbers that
roll over need not be the order of the numbers.

## Main definitions

* `Ledger`: The counter, the tickets held, the tickets handed in.
* `Ledger.draw`, `Ledger.handIn`: The two moves.
* `Ledger.Sound`: The tickets of a ledger are distinct and behind the counter.

## Theorems

* `sound_draw`, `sound_handIn`: The moves keep a ledger sound.
-/

namespace OpenManet

/-- The counter, the ticket each party holds, and the tickets handed in. -/
structure Ledger (ι α : Type) where
  counter : α
  held : ι → Option α
  spent : List α

section Tickets

variable {ι α : Type} [DecidableEq ι]

/-- A party draws the ticket the counter moves to. -/
def Ledger.draw (l : Ledger ι α) (i : ι) (ticket : α) : Ledger ι α :=
  { l with counter := ticket, held := Function.update l.held i (some ticket) }

/-- A party hands in its ticket. -/
def Ledger.handIn (l : Ledger ι α) (i : ι) (ticket : α) : Ledger ι α :=
  { l with held := Function.update l.held i none, spent := ticket :: l.spent }

/-- No ticket is there twice, and none is ahead of the counter. -/
structure Ledger.Sound (rank : α → Nat) (l : Ledger ι α) : Prop where
  nodup : l.spent.Nodup
  spentBehind : ∀ ticket ∈ l.spent, rank ticket ≤ rank l.counter
  heldBehind : ∀ i ticket, l.held i = some ticket → rank ticket ≤ rank l.counter
  unspent : ∀ i ticket, l.held i = some ticket → ticket ∉ l.spent
  single : ∀ i j ticket, l.held i = some ticket → l.held j = some ticket → i = j

/-- A ticket ahead of the counter is a new one. -/
theorem sound_draw (rank : α → Nat) (l : Ledger ι α) (h : l.Sound rank) (i : ι) (ticket : α)
    (hahead : rank l.counter < rank ticket) : (l.draw i ticket).Sound rank := by
  have hheld : ∀ j t, Function.update l.held i (some ticket) j = some t →
      (j = i ∧ t = ticket) ∨ (j ≠ i ∧ l.held j = some t) := by
    intro j t hj
    by_cases hji : j = i
    · rw [hji, Function.update_self, Option.some.injEq] at hj
      exact Or.inl ⟨hji, hj.symm⟩
    · rw [Function.update_of_ne hji] at hj
      exact Or.inr ⟨hji, hj⟩
  -- What was there before ranks below the new ticket.
  have hold : ∀ j t, l.held j = some t → t ≠ ticket := by
    rintro j t hj rfl
    exact absurd (h.heldBehind j t hj) (Nat.not_le_of_lt hahead)
  refine ⟨h.nodup, fun t ht => Nat.le_trans (h.spentBehind t ht) (Nat.le_of_lt hahead),
    fun j t hj => ?_,
    fun j t hj hspent => ?_, fun j k t hj hk => ?_⟩
  · rcases hheld j t hj with ⟨-, rfl⟩ | ⟨-, hj'⟩
    · exact Nat.le_refl _
    · exact Nat.le_trans (h.heldBehind j t hj') (Nat.le_of_lt hahead)
  · rcases hheld j t hj with ⟨-, rfl⟩ | ⟨-, hj'⟩
    · exact absurd (h.spentBehind t hspent) (Nat.not_le_of_lt hahead)
    · exact h.unspent j t hj' hspent
  · rcases hheld j t hj with ⟨hji, rfl⟩ | ⟨-, hj'⟩
    · rcases hheld k t hk with ⟨hki, -⟩ | ⟨-, hk'⟩
      · rw [hji, hki]
      · exact absurd rfl (hold k t hk')
    · rcases hheld k t hk with ⟨-, rfl⟩ | ⟨-, hk'⟩
      · exact absurd rfl (hold j t hj')
      · exact h.single j k t hj' hk'

/-- A ticket is handed in by the only party that holds it. -/
theorem sound_handIn (rank : α → Nat) (l : Ledger ι α) (h : l.Sound rank) (i : ι) (ticket : α)
    (hholds : l.held i = some ticket) : (l.handIn i ticket).Sound rank := by
  -- Whoever still holds a ticket is another, and held it before.
  have hheld : ∀ j t, Function.update l.held i none j = some t → j ≠ i ∧ l.held j = some t := by
    intro j t hj
    by_cases hji : j = i
    · rw [hji, Function.update_self] at hj
      cases hj
    · rw [Function.update_of_ne hji] at hj
      exact ⟨hji, hj⟩
  refine ⟨List.nodup_cons.mpr ⟨h.unspent i ticket hholds, h.nodup⟩, fun t ht => ?_,
    fun j t hj => h.heldBehind j t (hheld j t hj).2, fun j t hj hspent => ?_,
    fun j k t hj hk => h.single j k t (hheld j t hj).2 (hheld k t hk).2⟩
  · rcases List.mem_cons.mp ht with rfl | ht
    · exact h.heldBehind i t hholds
    · exact h.spentBehind t ht
  · rcases hheld j t hj with ⟨hji, hj'⟩
    rcases List.mem_cons.mp hspent with rfl | hspent
    · exact hji (h.single j i t hj' hholds)
    · exact h.unspent j t hj' hspent

end Tickets

end OpenManet
