import Mathlib.Data.List.Induction
import Mathlib.Order.Lattice

/-!
# Choosing among Offers

A holder of one offer sees others come in, one at a time, and each time keeps what it
has or takes the new one. What it ends up with depends on its test. Where the test is
a preference, the offer it ends with is the one preferred to all before it that none
after it is preferred to. Two preferences come from every ordering of the offers by a
key: to take an offer only where it is strictly better, which ends with the earliest of
the best, and to take equals as well, which ends with the latest of them. The larger
key is the better one.

## Main definitions

* `keep`, `chosen`: One offer coming in, and a list of them.
* `Preference`: The tests that end with a winner.
* `Wins`: The offer preferred to all before it and to none after it.

## Theorems

* `chosen_iff`: A preference ends with the offer that wins.
* `chosen_congr`: The choice depends on the comparisons among the offers only.
* `preference_lt`, `preference_le`: The two preferences of a key.
* `wins_lt_greatest`, `wins_le_greatest`: Their winners have the best key.
-/

namespace OpenManet

section Selection

variable {α κ : Type} (takes : α → α → Prop) [DecidableRel takes]

/-- The offer kept after another one has come in. -/
def keep (kept : Option α) (next : α) : Option α :=
  match kept with
  | none => some next
  | some a => if takes next a then some next else some a

/-- The offer kept at the end. -/
def chosen (offers : List α) : Option α := offers.foldl (keep takes) none

@[simp] theorem keep_none (next : α) : keep takes none next = some next := rfl

@[simp] theorem keep_some (a next : α) :
    keep takes (some a) next = if takes next a then some next else some a := rfl

theorem chosen_append (offers : List α) (a : α) :
    chosen takes (offers ++ [a]) = keep takes (chosen takes offers) a := by
  unfold chosen
  rw [List.foldl_append, List.foldl_cons, List.foldl_nil]

/-- What is kept is one of the offers. -/
theorem chosen_mem (offers : List α) (a : α) (h : chosen takes offers = some a) : a ∈ offers := by
  induction offers using List.reverseRecOn generalizing a with
  | nil => cases h
  | append_singleton offers b ih =>
      rw [chosen_append] at h
      rw [List.mem_append, List.mem_singleton]
      cases hkept : chosen takes offers with
      | none =>
          rw [hkept] at h
          exact Or.inr (Option.some.inj h).symm
      | some c =>
          rw [hkept, keep_some] at h
          split at h
          · exact Or.inr (Option.some.inj h).symm
          · exact Or.inl (ih a (hkept.trans h))

/-- Two tests that agree on the offers choose the same one. -/
theorem chosen_congr (takes' : α → α → Prop) [DecidableRel takes'] (offers : List α)
    (h : ∀ a ∈ offers, ∀ b ∈ offers, takes a b ↔ takes' a b) :
    chosen takes offers = chosen takes' offers := by
  induction offers using List.reverseRecOn with
  | nil => rfl
  | append_singleton offers b ih =>
      have hsame := ih fun a ha c hc =>
        h a (List.mem_append_left _ ha) c (List.mem_append_left _ hc)
      rw [chosen_append, chosen_append, ← hsame]
      cases hkept : chosen takes offers with
      | none => rfl
      | some c =>
          rw [keep_some, keep_some]
          exact if_congr (h b (List.mem_append_right _ (List.mem_singleton.mpr rfl)) c
            (List.mem_append_left _ (chosen_mem takes offers c hkept))) rfl rfl

/-- Nothing is kept only where nothing came in. -/
theorem chosen_eq_none (offers : List α) (h : chosen takes offers = none) : offers = [] := by
  cases offers using List.reverseRecOn with
  | nil => rfl
  | append_singleton offers b =>
      rw [chosen_append] at h
      cases hkept : chosen takes offers with
      | none =>
          rw [hkept] at h
          cases h
      | some c =>
          rw [hkept, keep_some] at h
          split at h
          · cases h
          · cases h

/-- Where nothing that follows is taken, what is kept stays. -/
theorem foldl_keep_of_refused (a : α) (after : List α) (h : ∀ b ∈ after, ¬ takes b a) :
    after.foldl (keep takes) (some a) = some a := by
  induction after with
  | nil => rfl
  | cons b after ih =>
      rw [List.foldl_cons, keep_some, if_neg (h b List.mem_cons_self)]
      exact ih (fun c hc => h c (List.mem_cons_of_mem _ hc))

/-- The offer preferred to all before it that none after it is preferred to. -/
def Wins (offers : List α) (a : α) : Prop :=
  ∃ before after, offers = before ++ a :: after ∧ (∀ b ∈ before, takes a b) ∧
    ∀ b ∈ after, ¬ takes b a

/-- Whoever wins is chosen, whatever the test. -/
theorem chosen_of_wins (offers : List α) (a : α) (h : Wins takes offers a) :
    chosen takes offers = some a := by
  rcases h with ⟨before, after, rfl, hbefore, hafter⟩
  have htaken : chosen takes (before ++ [a]) = some a := by
    rw [chosen_append]
    cases hkept : chosen takes before with
    | none => rfl
    | some c => rw [keep_some, if_pos (hbefore c (chosen_mem takes before c hkept))]
  rw [List.append_cons, chosen, List.foldl_append]
  rw [chosen] at htaken
  rw [htaken]
  exact foldl_keep_of_refused takes a after hafter

omit [DecidableRel takes]

/-- A test by which what beats the kept offer beats all the kept one has beaten, and all
    that have not beaten it. -/
structure Preference : Prop where
  trans : ∀ a b c, takes a b → takes b c → takes a c
  carries : ∀ a b c, takes a b → ¬ takes c b → takes a c

variable [DecidableRel takes]

theorem chosen_iff (hpref : Preference takes) (offers : List α) (a : α) :
    chosen takes offers = some a ↔ Wins takes offers a := by
  refine ⟨fun h => ?_, chosen_of_wins takes offers a⟩
  induction offers using List.reverseRecOn generalizing a with
  | nil => cases h
  | append_singleton offers b ih =>
      rw [chosen_append] at h
      cases hkept : chosen takes offers with
      | none =>
          rw [hkept, keep_none, Option.some.injEq] at h
          rw [chosen_eq_none takes offers hkept, h]
          exact ⟨[], [], rfl, fun _ hb => absurd hb List.not_mem_nil,
            fun _ hb => absurd hb List.not_mem_nil⟩
      | some c =>
          rcases ih c hkept with ⟨before, after, rfl, hbefore, hafter⟩
          rw [hkept, keep_some] at h
          by_cases hbetter : takes b c
          · -- The new one beats the one kept, and with it all the others.
            rw [if_pos hbetter, Option.some.injEq] at h
            subst h
            refine ⟨before ++ c :: after, [], rfl, fun d hd => ?_,
              fun _ hd => absurd hd List.not_mem_nil⟩
            rcases List.mem_append.mp hd with hd | hd
            · exact hpref.trans b c d hbetter (hbefore d hd)
            · rcases List.mem_cons.mp hd with rfl | hd
              · exact hbetter
              · exact hpref.carries b c d hbetter (hafter d hd)
          · rw [if_neg hbetter, Option.some.injEq] at h
            subst h
            refine ⟨before, after ++ [b], List.append_assoc _ _ _, hbefore, fun d hd => ?_⟩
            rcases List.mem_append.mp hd with hd | hd
            · exact hafter d hd
            · rw [List.mem_singleton.mp hd]
              exact hbetter

section Key

variable [LinearOrder κ] (key : α → κ)

theorem preference_lt : Preference fun a b => key b < key a where
  trans _ _ _ hab hbc := hbc.trans hab
  carries _ _ _ hab hcb := lt_of_le_of_lt (not_lt.mp hcb) hab

theorem preference_le : Preference fun a b => key b ≤ key a where
  trans _ _ _ hab hbc := hbc.trans hab
  carries _ _ _ hab hcb := (not_le.mp hcb).le.trans hab

/-- Nothing has a better key than the winner of the strict preference. -/
theorem wins_lt_greatest (offers : List α) (a : α) (h : Wins (fun a b => key b < key a) offers a)
    (b : α) (hb : b ∈ offers) : key b ≤ key a := by
  rcases h with ⟨before, after, rfl, hbefore, hafter⟩
  rcases List.mem_append.mp hb with hb | hb
  · exact (hbefore b hb).le
  · rcases List.mem_cons.mp hb with rfl | hb
    · exact le_refl _
    · exact not_lt.mp (hafter b hb)

theorem wins_le_greatest (offers : List α) (a : α) (h : Wins (fun a b => key b ≤ key a) offers a)
    (b : α) (hb : b ∈ offers) : key b ≤ key a := by
  rcases h with ⟨before, after, rfl, hbefore, hafter⟩
  rcases List.mem_append.mp hb with hb | hb
  · exact hbefore b hb
  · rcases List.mem_cons.mp hb with rfl | hb
    · exact le_refl _
    · exact (not_le.mp (hafter b hb)).le

end Key

end Selection

end OpenManet
