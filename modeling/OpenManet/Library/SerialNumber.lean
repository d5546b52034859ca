import Mathlib.Data.BitVec

/-!
# Serial Numbers

Numbers that roll over are ordered by the sign of their wrapped difference. The
order is not transitive, so what can be said of it is said of distances: moving
on by less than half the range gives a number that is not older, and numbers
that stay in the lower half of the range are ordered as they look. More generally
numbers within a window of half the range are ordered by their distances from its
start, wherever the window lies, and so their order is transitive.

## Main definitions

* `signedDistance`: The wrapped difference as a signed number.
* `offsetFrom`, `InWindow`: How far a number is from the start of a window.

## Theorems

* `signedDistance_self`, `signedDistance_add`: Moving on is not going back.
* `signedDistance_of_lt_half`: In the lower half the order is the usual one.
* `signedDistance_inWindow`: In a window the order is that of the distances.
-/

namespace OpenManet

section SerialNumber

variable {w : Nat}

/-- The signed distance from `y` to `x`, negative when `x` is the older one. -/
def signedDistance (x y : BitVec w) : Int := (x - y).toInt

theorem signedDistance_self (x : BitVec w) : signedDistance x x = 0 := by
  rw [signedDistance, BitVec.sub_self, BitVec.toInt_zero]

/-- Moving on by less than half the range covers exactly that distance. -/
theorem signedDistance_add (x : BitVec w) (k : Nat) (hk : 2 * k < 2 ^ w) :
    signedDistance (x + BitVec.ofNat w k) x = k := by
  have hmod : k % 2 ^ w = k := Nat.mod_eq_of_lt (by omega)
  have hsub : x + BitVec.ofNat w k - x = BitVec.ofNat w k := by
    rw [BitVec.add_comm, BitVec.add_sub_cancel]
  rw [signedDistance, hsub, BitVec.toInt_eq_toNat_of_lt, BitVec.toNat_ofNat, hmod]
  rw [BitVec.toNat_ofNat, hmod]
  exact hk

/-- In the lower half of the range the distance is the difference. -/
theorem signedDistance_of_lt_half (x y : BitVec w) (hx : 2 * x.toNat < 2 ^ w)
    (hy : 2 * y.toNat < 2 ^ w) : signedDistance x y = x.toNat - y.toNat := by
  rw [signedDistance, BitVec.toInt_sub, BitVec.toInt_eq_toNat_of_lt hx,
    BitVec.toInt_eq_toNat_of_lt hy]
  refine Int.bmod_eq_of_le_mul_two ?_ ?_
  · omega
  · omega

/-- The distance of a number from the start of a window, going up. -/
def offsetFrom (base x : BitVec w) : Nat := (x - base).toNat

theorem offsetFrom_inj (base x y : BitVec w) (h : offsetFrom base x = offsetFrom base y) :
    x = y :=
  sub_left_injective (BitVec.eq_of_toNat_eq h)

/-- The number lies less than half the range above the start. -/
def InWindow (base x : BitVec w) : Prop := 2 * offsetFrom base x < 2 ^ w

instance (base x : BitVec w) : Decidable (InWindow base x) := inferInstanceAs (Decidable (_ < _))

/-- Within a window the signed distance is the difference of the offsets. -/
theorem signedDistance_inWindow (base x y : BitVec w) (hx : InWindow base x)
    (hy : InWindow base y) : signedDistance x y = offsetFrom base x - offsetFrom base y := by
  have hshift : x - y = (x - base) - (y - base) := (sub_sub_sub_cancel_right x y base).symm
  have hdistance := signedDistance_of_lt_half (x - base) (y - base) hx hy
  unfold signedDistance at hdistance ⊢
  rw [hshift]
  exact hdistance

end SerialNumber

end OpenManet
