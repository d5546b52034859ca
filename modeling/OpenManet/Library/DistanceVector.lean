import Mathlib.Data.Prod.Lex
import Mathlib.Logic.Relation
import Mathlib.Order.OrderDual

/-!
# Distance Vectors

Nodes choose next hops by ranks that they offer to each other. A node takes a route
that is worse than what the next hop has offered, since it is one hop further. What
keeps the next hops from running in a circle is a local condition: while a node has
a route, it has never offered anything better than that route. Around a circle the
ranks would then rise and come back to where they began.

A few nodes may be final: they have no route themselves, and a route over one of
them needs no offer.

A rank is a sequence number and a hop count: the newer number is better, and of two
routes with the same number the shorter one.

## Main definitions

* `Feasible`: No node has offered anything better than what it has.
* `Rank`, `rankOf`: Sequence numbers and hop counts.

## Theorems

* `Feasible.acyclic`: Next hops do not run in a circle.
* `rankOf_le`, `rankOf_lt`: The order of ranks.
-/

namespace OpenManet

/-! ### Next hops -/

section Feasible

variable {ι R : Type} [Preorder R]

/-- Routes `route i j r` of node `i` over node `j` with rank `r`, and the ranks a node
    has offered: a route over a node that is not final has been offered by it, and
    its owner has offered nothing better. -/
structure Feasible (final : ι → Prop) (route : ι → ι → R → Prop) (offered : ι → R → Prop) :
    Prop where
  ends : ∀ i j r, final i → ¬ route i j r
  own : ∀ i j r o, route i j r → ¬ final j → offered i o → o ≤ r
  next : ∀ i j r, route i j r → ¬ final j → ∃ o, offered j o ∧ r < o

variable {final : ι → Prop} {route : ι → ι → R → Prop} {offered : ι → R → Prop}

/-- Along a path the offers rise above the first route. -/
theorem Feasible.path_offer (h : Feasible final route offered) (i j : ι)
    (hpath : Relation.TransGen (fun i j => ∃ r, route i j r) i j) (hend : ¬ final j) :
    ∃ k r o, route i k r ∧ ¬ final k ∧ offered j o ∧ r < o := by
  induction hpath using Relation.TransGen.head_induction_on with
  | single hedge =>
      rcases hedge with ⟨r, hr⟩
      rcases h.next _ j r hr hend with ⟨o, ho, hlt⟩
      exact ⟨j, r, o, hr, hend, ho, hlt⟩
  | @head i m hedge hrest ih =>
      rcases hedge with ⟨r, hr⟩
      rcases ih with ⟨k, r', o', hr', hk, ho', hlt'⟩
      -- The node in between has a route, so it is not final and has offered this one.
      have hm : ¬ final m := fun hfinal => h.ends m k r' hfinal hr'
      rcases h.next i m r hr hm with ⟨o, ho, hlt⟩
      have hle : o ≤ r' := h.own m k r' o hr' hk ho
      exact ⟨m, r, o', hr, hm, ho', lt_of_lt_of_le hlt hle |>.trans hlt'⟩

/-- No path leads back to where it began. -/
theorem Feasible.acyclic (h : Feasible final route offered) (i : ι) :
    ¬ Relation.TransGen (fun i j => ∃ r, route i j r) i i := by
  intro hcycle
  have hnot : ¬ final i := by
    rcases Relation.TransGen.head'_iff.mp hcycle with ⟨j, ⟨r, hr⟩, -⟩
    exact fun hfinal => h.ends i j r hfinal hr
  rcases h.path_offer i i hcycle hnot with ⟨k, r, o, hr, hk, ho, hlt⟩
  exact absurd hlt (not_lt_of_ge (h.own i k r o hr hk ho))

end Feasible

/-! ### Ranks -/

/-- A sequence number and a hop count; more hops are worse. -/
abbrev Rank := ℕ ×ₗ ℕᵒᵈ

def rankOf (seq hops : Nat) : Rank := toLex (seq, OrderDual.toDual hops)

theorem rankOf_lt (seq hops seq' hops' : Nat) :
    rankOf seq hops < rankOf seq' hops' ↔ seq < seq' ∨ (seq = seq' ∧ hops' < hops) :=
  Prod.Lex.toLex_lt_toLex

theorem rankOf_le (seq hops seq' hops' : Nat) :
    rankOf seq hops ≤ rankOf seq' hops' ↔ seq < seq' ∨ (seq = seq' ∧ hops' ≤ hops) :=
  Prod.Lex.toLex_le_toLex

end OpenManet
