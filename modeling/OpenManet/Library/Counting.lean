import Mathlib.Data.Fintype.Card
import Mathlib.Algebra.BigOperators.Group.Finset.Piecewise

/-!
# Counting the Places of a Table

How many places of a finite table have a property, and how the number moves when
one place changes: by what that place counts for after the change less what it
counted for before.

## Main definitions

* `countTrue`: The number of places with a property.

## Theorems

* `countTrue_update`: The number after a change at one place.
* `countTrue_pos_iff`: The number is positive when some place counts.
* `countTrue_le_card`: The number is bounded by that of all places.
-/

namespace OpenManet

section Counting

variable {ι : Type} [Fintype ι]

/-- The number of places at which `f` holds. -/
def countTrue (f : ι → Bool) : Nat := (Finset.univ.filter fun i => f i = true).card

theorem countTrue_eq_sum (f : ι → Bool) : countTrue f = ∑ i, (f i).toNat := by
  rw [countTrue, Finset.card_filter]
  refine Finset.sum_congr rfl (fun i _ => ?_)
  cases f i <;> rfl

/-- Two tables that agree off one place differ in their numbers by what this place
    counts for. -/
theorem countTrue_update [DecidableEq ι] (f g : ι → Bool) (k : ι) (h : ∀ i, i ≠ k → f i = g i) :
    countTrue f + (g k).toNat = countTrue g + (f k).toNat := by
  have hrest : ∑ i ∈ Finset.univ.erase k, (f i).toNat = ∑ i ∈ Finset.univ.erase k, (g i).toNat :=
    Finset.sum_congr rfl (fun i hi => congrArg Bool.toNat (h i (Finset.ne_of_mem_erase hi)))
  rw [countTrue_eq_sum, countTrue_eq_sum, ← Finset.add_sum_erase _ _ (Finset.mem_univ k),
    ← Finset.add_sum_erase _ (fun i => (g i).toNat) (Finset.mem_univ k), hrest]
  omega

theorem countTrue_pos_iff (f : ι → Bool) : 0 < countTrue f ↔ ∃ i, f i = true := by
  rw [countTrue, Finset.card_pos]
  constructor
  · rintro ⟨i, hi⟩
    exact ⟨i, (Finset.mem_filter.mp hi).2⟩
  · rintro ⟨i, hi⟩
    exact ⟨i, Finset.mem_filter.mpr ⟨Finset.mem_univ i, hi⟩⟩

theorem countTrue_le_card (f : ι → Bool) : countTrue f ≤ Fintype.card ι :=
  Finset.card_filter_le _ _

end Counting

end OpenManet
