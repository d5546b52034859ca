import Mathlib.Data.Nat.Init

/-!
# Hops

Nodes that hear each other over links, which need not go both ways. `WithinHops links i n j`
says that what `i` sends can come to `j` over `n` links at most, whichever nodes pass
it on. The least such `n` is the distance, and to say that a count is no less than the
distance is to say `WithinHops` of it.

## Main definitions

* `WithinHops`: A node is at most so many links away.

## Theorems

* `WithinHops.mono`: More links do no harm.
-/

namespace OpenManet

/-- What the first node sends can come to the last over at most this many links. -/
inductive WithinHops {ι : Type} (links : ι → ι → Prop) (i : ι) : Nat → ι → Prop where
  | here (n : Nat) : WithinHops links i n i
  | link (n : Nat) (j k : ι) (h : WithinHops links i n j) (hlink : links j k) :
      WithinHops links i (n + 1) k

section Hops

variable {ι : Type} {links : ι → ι → Prop} {i j : ι}

theorem WithinHops.mono (n m : Nat) (h : WithinHops links i n j) (hle : n ≤ m) :
    WithinHops links i m j := by
  induction h generalizing m with
  | here n => exact .here m
  | link n j k h hlink ih =>
      cases m with
      | zero => omega
      | succ m => exact .link m j k (ih m (by omega)) hlink

end Hops

end OpenManet
