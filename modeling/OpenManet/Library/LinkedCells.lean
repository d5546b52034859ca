import Mathlib.Data.List.Induction
import Mathlib.Data.List.Nodup

/-!
# Doubly Linked Cells

A memory maps addresses to cells, and a cell has two pointers besides its datum. A
segment is a stretch of the memory that looks like a list: the cells at the addresses of
the list hold its values, each points forward to the next and back to the one before,
and at the two ends to what comes after and before the segment.

Whether a stretch of memory is a segment depends on its own addresses only, so a segment
is taken apart where the memory is written and put together again around the change.
A segment that ends with a null pointer cannot come back to an address it has been to,
since from there on it would go on for ever; the addresses therefore need not be assumed
to be different.

The list is told by pairs of an address and a value, since the addresses tell where the
writes go and the values what they mean.

## Main definitions

* `LinkedCell`: A datum and two pointers.
* `front`, `back`: Where a segment is entered from either side.
* `Segment`: A stretch of memory that looks like a list.
* `Reaches`: Following the forward pointers.
* `WellLinked`: A doubly linked list with its two ends.

## Theorems

* `segment_append`: A segment in two parts.
* `Segment.cell`, `Segment.congr`: Its cells, and what it depends on.
* `Segment.nodup`, `Segment.apart`: Its addresses are different.
* `segment_snoc`, `segment_tail`, `segment_unlink`: A cell comes or goes.
* `Segment.wellLinked`: A segment between null pointers is a doubly linked list.
-/

namespace OpenManet

/-- A cell of a doubly linked list; no address is the null pointer. -/
structure LinkedCell (ι α : Type) where
  data : α
  next : Option ι
  prev : Option ι
  deriving DecidableEq, Repr

section Segments

variable {ι α : Type}

/-- The address a segment is entered at from before it. -/
def front (cells : List (ι × α)) (after : Option ι) : Option ι :=
  match cells with
  | [] => after
  | c :: _ => some c.1

/-- The address a segment is entered at from behind. -/
def back (before : Option ι) : List (ι × α) → Option ι
  | [] => before
  | c :: rest => back (some c.1) rest

/-- The cells of the list are in memory and linked to each other and to both sides. -/
def Segment (mem : ι → Option (LinkedCell ι α)) : Option ι → List (ι × α) → Option ι → Prop
  | _, [], _ => True
  | before, c :: rest, after =>
    mem c.1 = some { data := c.2, next := front rest after, prev := before } ∧
      Segment mem (some c.1) rest after

@[simp] theorem front_nil (after : Option ι) : front ([] : List (ι × α)) after = after := rfl

@[simp] theorem front_cons (c : ι × α) (rest : List (ι × α)) (after : Option ι) :
    front (c :: rest) after = some c.1 := rfl

@[simp] theorem back_nil (before : Option ι) : back before ([] : List (ι × α)) = before := rfl

theorem front_append (cells cells' : List (ι × α)) (after : Option ι) :
    front (cells ++ cells') after = front cells (front cells' after) := by
  cases cells <;> rfl

@[simp] theorem back_append (before : Option ι) (cells cells' : List (ι × α)) :
    back before (cells ++ cells') = back (back before cells) cells' := by
  induction cells generalizing before with
  | nil => rfl
  | cons c rest ih => exact ih (some c.1)

@[simp] theorem back_singleton (before : Option ι) (c : ι × α) : back before [c] = some c.1 := rfl

theorem front_eq_none (cells : List (ι × α)) : front cells none = none ↔ cells = [] := by
  cases cells with
  | nil => exact iff_of_true rfl rfl
  | cons c rest => exact iff_of_false nofun nofun

theorem back_eq_none (cells : List (ι × α)) : back none cells = none ↔ cells = [] := by
  induction cells using List.reverseRecOn with
  | nil => exact iff_of_true rfl rfl
  | append_singleton cells c _ =>
      rw [back_append, back_singleton]
      exact iff_of_false nofun (by simp)

variable {mem mem' : ι → Option (LinkedCell ι α)} {before after : Option ι}

/-- A segment in two parts, each linked to the other. -/
theorem segment_append (cells cells' : List (ι × α)) :
    Segment mem before (cells ++ cells') after ↔
      Segment mem before cells (front cells' after) ∧
        Segment mem (back before cells) cells' after := by
  induction cells generalizing before with
  | nil => exact ⟨fun h => ⟨trivial, h⟩, fun h => h.2⟩
  | cons c rest ih =>
      simp only [List.cons_append, Segment, ih, front_append, back, and_assoc]

/-- Each cell is linked to its neighbours. -/
theorem Segment.cell {cells cells' : List (ι × α)} {c : ι × α}
    (h : Segment mem before (cells ++ c :: cells') after) :
    mem c.1 = some { data := c.2, next := front cells' after, prev := back before cells } :=
  ((segment_append cells (c :: cells')).mp h).2.1

/-- A segment depends on its own addresses only. -/
theorem Segment.congr {cells : List (ι × α)} (h : Segment mem before cells after)
    (hsame : ∀ c ∈ cells, mem' c.1 = mem c.1) : Segment mem' before cells after := by
  induction cells generalizing before with
  | nil => trivial
  | cons c rest ih =>
      refine ⟨(hsame c List.mem_cons_self).trans h.1, ih h.2 fun d hd => ?_⟩
      exact hsame d (List.mem_cons_of_mem c hd)

theorem Segment.found {cells : List (ι × α)} (h : Segment mem before cells after) (a : ι)
    (ha : a ∈ cells.map Prod.fst) : mem a ≠ none := by
  rcases List.mem_map.mp ha with ⟨c, hc, rfl⟩
  rcases List.append_of_mem hc with ⟨l, l', rfl⟩
  rw [h.cell]
  exact Option.some_ne_none _

/-! ### No address twice -/

/-- Two segments entered at one address and ending with null pointers are as long. -/
theorem Segment.length_eq {cells cells' : List (ι × α)} {before before' : Option ι}
    (h : Segment mem before cells none) (h' : Segment mem before' cells' none)
    (hfront : front cells none = front cells' none) : cells.length = cells'.length := by
  induction cells generalizing before before' cells' with
  | nil =>
      rw [(front_eq_none cells').mp hfront.symm]
  | cons c rest ih =>
      cases cells' with
      | nil => cases hfront
      | cons c' rest' =>
          have haddress : c.1 = c'.1 := Option.some.inj hfront
          have hcell := h.1.symm.trans ((congrArg mem haddress).trans h'.1)
          rw [Option.some.injEq, LinkedCell.mk.injEq] at hcell
          rw [List.length_cons, List.length_cons, ih h.2 h'.2 hcell.2.1]

/-- A segment that ends with a null pointer does not come back to an address. -/
theorem Segment.nodup {cells : List (ι × α)} (h : Segment mem before cells none) :
    (cells.map Prod.fst).Nodup := by
  induction cells generalizing before with
  | nil => exact List.nodup_nil
  | cons c rest ih =>
      refine List.nodup_cons.mpr ⟨fun hagain => ?_, ih h.2⟩
      -- From there on the segment would be as long as from here.
      rcases List.mem_map.mp hagain with ⟨d, hd, haddress⟩
      rcases List.append_of_mem hd with ⟨l, l', rfl⟩
      have hlater := ((segment_append l (d :: l')).mp h.2).2
      have hlength := Segment.length_eq h hlater (congrArg some haddress.symm)
      simp only [List.length_cons, List.length_append] at hlength
      omega

/-- What comes after a cell is somewhere else. -/
theorem Segment.apart {cells cells' : List (ι × α)} {b : ι × α}
    (h : Segment mem before (cells ++ b :: cells') none) (c : ι × α) (hc : c ∈ cells') :
    c.1 ≠ b.1 := by
  have hnodup := (((segment_append cells (b :: cells')).mp h).2).nodup
  rw [List.map_cons, List.nodup_cons] at hnodup
  exact fun hsame => hnodup.1 (hsame ▸ List.mem_map_of_mem hc)

/-! ### A cell comes or goes -/

/-- A cell is added at the end. -/
theorem segment_snoc (cells : List (ι × α)) (b c : ι × α)
    (h : Segment mem before (cells ++ [b]) none) (hfresh : c.1 ∉ (cells ++ [b]).map Prod.fst)
    (hb : mem' b.1 = some { data := b.2, next := some c.1, prev := back before cells })
    (hc : mem' c.1 = some { data := c.2, next := none, prev := some b.1 })
    (hother : ∀ a, a ≠ b.1 → a ≠ c.1 → mem' a = mem a) :
    Segment mem' before (cells ++ [b] ++ [c]) none := by
  have hnodup := h.nodup
  rw [List.map_append, List.nodup_append] at hnodup
  rw [segment_append, segment_append]
  refine ⟨⟨((segment_append cells [b]).mp h).1.congr fun d hd => hother d.1 ?_ ?_, hb, trivial⟩, ?_⟩
  · exact hnodup.2.2 d.1 (List.mem_map_of_mem hd) b.1 List.mem_cons_self
  · rintro hsame
    refine hfresh (hsame ▸ List.mem_map_of_mem ?_)
    exact List.mem_append_left [b] hd
  · rw [back_append, back_singleton]
    exact ⟨hc, trivial⟩

/-- The first cell is taken away. -/
theorem segment_tail (b c : ι × α) (cells : List (ι × α)) (before' : Option ι)
    (h : Segment mem before (b :: c :: cells) none)
    (hc : mem' c.1 = some { data := c.2, next := front cells none, prev := before' })
    (hother : ∀ a, a ≠ b.1 → a ≠ c.1 → mem' a = mem a) :
    Segment mem' before' (c :: cells) none := by
  have hnodup := h.nodup
  simp only [List.map_cons, List.nodup_cons, List.mem_cons, not_or] at hnodup
  refine ⟨hc, h.2.2.congr fun d hd => hother d.1 ?_ ?_⟩
  · exact fun hsame => hnodup.1.2 (hsame ▸ List.mem_map_of_mem hd)
  · exact fun hsame => hnodup.2.1 (hsame ▸ List.mem_map_of_mem hd)

/-- A cell behind another one is taken out, and its neighbours are linked. -/
theorem segment_unlink (cells : List (ι × α)) (b c : ι × α) (cells' : List (ι × α))
    (h : Segment mem before (cells ++ b :: c :: cells') none)
    (hb : mem' b.1 = some { data := b.2, next := front cells' none, prev := back before cells })
    (hnext : ∀ d rest, cells' = d :: rest →
      mem' d.1 = some { data := d.2, next := front rest none, prev := some b.1 })
    (hother : ∀ a, a ≠ b.1 → a ≠ c.1 → some a ≠ front cells' none → mem' a = mem a) :
    Segment mem' before (cells ++ b :: cells') none := by
  have hnodup := h.nodup
  simp only [List.map_append, List.map_cons, List.nodup_append, List.nodup_cons, List.mem_cons,
    not_or] at hnodup
  rcases hnodup with ⟨-, ⟨⟨-, hbrest⟩, hcrest, hrest⟩, hapart⟩
  rcases (segment_append cells (b :: c :: cells')).mp h with ⟨hfirst, -, hsecond⟩
  refine (segment_append cells (b :: cells')).mpr ⟨hfirst.congr fun d hd => ?_, hb, ?_⟩
  · -- In front of the cell everything stays.
    have hd := hapart d.1 (List.mem_map_of_mem hd)
    refine hother d.1 (hd b.1 (Or.inl rfl)) (hd c.1 (Or.inr (Or.inl rfl))) ?_
    cases cells' with
    | nil => exact Option.some_ne_none _
    | cons e rest =>
        intro hsame
        exact hd e.1 (Or.inr (Or.inr List.mem_cons_self)) (Option.some.inj hsame)
  · cases cells' with
    | nil => trivial
    | cons e rest =>
        refine ⟨hnext e rest rfl, hsecond.2.2.congr fun d hd => hother d.1 ?_ ?_ ?_⟩
        · exact fun hsame => hbrest (hsame ▸ List.mem_cons_of_mem _ (List.mem_map_of_mem hd))
        · exact fun hsame => hcrest (hsame ▸ List.mem_cons_of_mem _ (List.mem_map_of_mem hd))
        · intro hsame
          rw [List.map_cons, List.nodup_cons] at hrest
          exact hrest.1 (Option.some.inj hsame ▸ List.mem_map_of_mem hd)

/-! ### Doubly linked lists -/

/-- An address is reached by following the forward pointers. -/
inductive Reaches (mem : ι → Option (LinkedCell ι α)) : Option ι → ι → Prop where
  | here (a : ι) : Reaches mem (some a) a
  | next (a b : ι) (cell : LinkedCell ι α) (hcell : mem a = some cell)
      (hrest : Reaches mem cell.next b) : Reaches mem (some a) b

/-- From the front of a segment its own addresses are reached. -/
theorem Segment.reaches_iff {cells : List (ι × α)} (h : Segment mem before cells none) (b : ι) :
    Reaches mem (front cells none) b ↔ b ∈ cells.map Prod.fst := by
  induction cells generalizing before with
  | nil => exact iff_of_false nofun List.not_mem_nil
  | cons c rest ih =>
      rw [front_cons, List.map_cons, List.mem_cons, ← ih h.2]
      constructor
      · intro hreach
        cases hreach with
        | here => exact Or.inl rfl
        | next _ _ cell hcell hrest =>
            cases h.1.symm.trans hcell
            exact Or.inr hrest
      · rintro (rfl | hrest)
        · exact .here _
        · exact .next _ _ _ h.1 hrest

/-- An address that is reached takes the segment apart. -/
theorem Segment.split {cells : List (ι × α)} (h : Segment mem none cells none) (a : ι)
    (cell : LinkedCell ι α) (hreach : Reaches mem (front cells none) a)
    (hcell : mem a = some cell) :
    ∃ l x l', cells = l ++ (a, x) :: l' ∧
      cell = { data := x, next := front l' none, prev := back none l } := by
  rcases List.mem_map.mp ((h.reaches_iff a).mp hreach) with ⟨⟨a', x⟩, hmem, rfl⟩
  rcases List.append_of_mem hmem with ⟨l, l', rfl⟩
  exact ⟨l, x, l', rfl, Option.some.inj (hcell.symm.trans h.cell)⟩

theorem back_eq_some (cells : List (ι × α)) (a : ι) (hback : back none cells = some a) :
    ∃ l x, cells = l ++ [(a, x)] := by
  rcases List.eq_nil_or_concat' cells with rfl | ⟨l, ⟨a', x⟩, rfl⟩
  · cases hback
  · rw [back_append, back_singleton, Option.some.injEq] at hback
    cases hback
    exact ⟨l, x, rfl⟩

/-- A doubly linked list between two ends. -/
structure WellLinked (mem : ι → Option (LinkedCell ι α)) (first last : Option ι) : Prop where
  ends : first = none ↔ last = none
  firstPrev : ∀ a, first = some a → ∃ cell, mem a = some cell ∧ cell.prev = none
  lastNext : ∀ a, last = some a → ∃ cell, mem a = some cell ∧ cell.next = none
  nextPrev : ∀ a cell b, Reaches mem first a → mem a = some cell → cell.next = some b →
    ∃ cell', mem b = some cell' ∧ cell'.prev = some a
  prevNext : ∀ a cell b, Reaches mem first a → mem a = some cell → cell.prev = some b →
    ∃ cell', mem b = some cell' ∧ cell'.next = some a
  reaches : ∀ a, last = some a → Reaches mem first a

theorem Segment.wellLinked {cells : List (ι × α)} (h : Segment mem none cells none) :
    WellLinked mem (front cells none) (back none cells) := by
  constructor
  case ends => rw [front_eq_none, back_eq_none]
  case firstPrev =>
      intro a hfront
      cases cells with
      | nil => cases hfront
      | cons c rest =>
          cases hfront
          exact ⟨_, h.1, rfl⟩
  case lastNext =>
      intro a hback
      rcases back_eq_some cells a hback with ⟨l, x, rfl⟩
      exact ⟨_, h.cell, rfl⟩
  case nextPrev =>
      intro a cell b hreach hcell hnext
      rcases h.split a cell hreach hcell with ⟨l, x, l', rfl, rfl⟩
      cases l' with
      | nil => cases hnext
      | cons c rest =>
          -- Seen from the next cell, this one is the last of those before.
          cases hnext
          rw [List.append_cons] at h
          refine ⟨_, h.cell, ?_⟩
          rw [back_append, back_singleton]
  case prevNext =>
      intro a cell b hreach hcell hprev
      rcases h.split a cell hreach hcell with ⟨l, x, l', rfl, rfl⟩
      rcases List.eq_nil_or_concat' l with rfl | ⟨l, c, rfl⟩
      · cases hprev
      · simp only [back_append, back_singleton, Option.some.injEq] at hprev
        rw [List.append_assoc] at h
        exact ⟨_, hprev ▸ h.cell, rfl⟩
  case reaches =>
      intro a hback
      rcases back_eq_some cells a hback with ⟨l, x, rfl⟩
      rw [h.reaches_iff]
      simp

end Segments

end OpenManet
