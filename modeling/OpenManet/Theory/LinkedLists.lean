import OpenManet.Core.LinkedList
import OpenManet.Core.Node
import OpenManet.Library.Runs

/-!
# Linked Lists as Sequences

The linked list of the source is meant to be a sequence: an addition appends, a removal
erases the first occurrence, and the readers tell the values and whether one is among
them. A list is linked through a list of entries, one cell each, and the values of these
entries are the sequence; every function is described by what it does to the entries.

The simulation is exact but for the bounds of the code. `remove_entry_from_list` looks at
the first entry before it asks whether there is one, so a removal from the empty list
follows `NULL`, where the other functions take an empty list as it is and a removal of
an absent value does nothing. `add_entry_to_list` follows what `malloc` returns without
a test. And `get_all_entries` counts in a `uint32_t`, so from `2 ^ 32` values on the size
is wrong and the array too small.

## Main definitions

* `Represents`: A list linked through given entries.
* `ListCall`: The calls that change a list, on it and on a sequence.
* `Shows`: The list is doubly linked and its readers tell a sequence.
* `Within`: The bounds of the code.

## Theorems

* `countEntries_eq`, `copyEntries_eq`, `isInLoop_eq`: The loops that read.
* `removeLoop_represents`: The loop that removes.
* `removeEntryFromList_represents`, `addEntryToList_represents`: The functions that change.
* `Represents.shows`, `Represents.perform`: What a linked list shows and what a call does.
* `linkedList_iff`: Every sequence of calls.
-/

namespace OpenManet

/-- The list is linked through these entries, in this order, and has no other blocks. -/
structure Represents (l : LinkedList) (cells : List (Addr × U32)) : Prop where
  first : l.first = front cells none
  last : l.last = back none cells
  segment : Segment l.heap none cells none
  blocks : l.blocks = cells.length

namespace LinkedList

/-! ### Reading -/

section Reading

variable (l : LinkedList) {cells : List (Addr × U32)} {before : Option Addr}

/-- The first loop counts the entries, as far as the size can. -/
theorem countEntries_eq (hcells : Segment l.heap before cells none) (rounds : Nat) (size : U32)
    (hrounds : cells.length < rounds) :
    l.countEntries rounds (front cells none) size = some (size + BitVec.ofNat 32 cells.length) := by
  induction cells generalizing before rounds size with
  | nil =>
      rcases Nat.exists_eq_add_of_lt hrounds with ⟨k, rfl⟩
      simp [countEntries]
  | cons c rest ih =>
      cases rounds with
      | zero => exact absurd hrounds (Nat.not_lt_zero _)
      | succ rounds =>
          simp only [front_cons, countEntries, load_some, hcells.1, Option.bind_eq_bind,
            Option.bind_some]
          rw [ih hcells.2 rounds (size + 1) (Nat.lt_of_succ_lt_succ hrounds), List.length_cons,
            Nat.add_comm, BitVec.ofNat_add, BitVec.add_assoc]
          rfl

/-- The second loop writes the values one after the other. -/
theorem copyEntries_eq (hcells : Segment l.heap before cells none) (rounds : Nat) (index : U32)
    (written rest : List U32) (hrounds : cells.length < rounds)
    (hindex : index.toNat = written.length) (hrest : rest.length = cells.length)
    (hsize : written.length + cells.length < 2 ^ 32) :
    l.copyEntries rounds (front cells none) index (written ++ rest) =
      some (written ++ cells.map Prod.snd) := by
  -- What is written and what is ahead together fill the array, so the index stays below
  -- its length and does not wrap.
  induction cells generalizing before rounds index written rest with
  | nil =>
      rcases Nat.exists_eq_add_of_lt hrounds with ⟨k, rfl⟩
      rw [List.eq_nil_of_length_eq_zero hrest]
      rfl
  | cons c cells ih =>
      cases rounds with
      | zero => exact absurd hrounds (Nat.not_lt_zero _)
      | succ rounds =>
          rcases List.exists_cons_of_length_eq_add_one hrest with ⟨x, rest, rfl⟩
          have hnext : (index + 1).toNat = (written ++ [c.2]).length := by
            rw [List.length_append, List.length_singleton, BitVec.toNat_add, hindex]
            refine Nat.mod_eq_of_lt ?_
            rw [List.length_cons] at hsize
            simp only [BitVec.reduceToNat]
            omega
          have hset : (written ++ x :: rest).set index.toNat c.2 = written ++ [c.2] ++ rest := by
            rw [hindex, List.set_append_right _ _ (Nat.le_refl _), Nat.sub_self, List.set_cons_zero,
              List.append_cons]
          have hwithin : index.toNat < (written ++ x :: rest).length := by
            rw [hindex, List.length_append, List.length_cons]
            omega
          simp only [front_cons, copyEntries, load_some, hcells.1, Option.bind_eq_bind,
            Option.bind_some]
          rw [if_pos hwithin, hset, ih hcells.2 rounds (index + 1) (written ++ [c.2]) rest
            (Nat.lt_of_succ_lt_succ hrounds) hnext (Nat.succ.inj hrest), List.append_assoc]
          · rfl
          · simp only [List.length_cons, List.length_append, List.length_nil] at hsize ⊢
            omega

/-- The loop stops at the first entry with the value, or at the end. -/
theorem isInLoop_eq (hcells : Segment l.heap before cells none) (rounds : Nat) (data : U32)
    (hrounds : cells.length < rounds) :
    l.isInLoop data rounds (front cells none) =
      some (if data ∈ cells.map Prod.snd then 1 else 0) := by
  induction cells generalizing before rounds with
  | nil =>
      rcases Nat.exists_eq_add_of_lt hrounds with ⟨k, rfl⟩
      rfl
  | cons c rest ih =>
      cases rounds with
      | zero => exact absurd hrounds (Nat.not_lt_zero _)
      | succ rounds =>
          simp only [front_cons, isInLoop, load_some, hcells.1, Option.bind_eq_bind,
            Option.bind_some]
          by_cases hdata : c.2 = data
          · have hmem : data ∈ (c :: rest).map Prod.snd := hdata ▸ List.mem_cons_self
            rw [if_pos hdata, if_pos hmem]
            rfl
          · rw [if_neg hdata, ih hcells.2 rounds (Nat.lt_of_succ_lt_succ hrounds)]
            simp only [List.map_cons, List.mem_cons, Ne.symm hdata, false_or]

end Reading

/-! ### Changing -/

section Changing

variable (l : LinkedList) (cells : List (Addr × U32))

/-! #### One round of the loop -/

section Round

variable (data : U32) (a b : Addr) (rounds : Nat)

theorem removeLoop_other (entry : LinkedEntry) (ha : l.heap a = some entry)
    (hdata : entry.data ≠ data) :
    removeLoop data (rounds + 1) (some a) l = removeLoop data rounds entry.next l := by
  simp only [removeLoop, load_some, ha, Option.bind_eq_bind, Option.bind_some, if_neg hdata]

/-- The last entry is taken out: the one before it becomes the last. -/
theorem removeLoop_last (before : LinkedEntry)
    (ha : l.heap a = some { data := data, next := none, prev := some b })
    (hb : l.heap b = some before) :
    removeLoop data (rounds + 1) (some a) l =
      some (free { l with
        last := some b
        heap := Function.update l.heap b (some { before with next := none }) } a) := by
  have hstore := store_some { l with last := some b } b before
    (fun entry => { entry with next := none }) hb
  simp only [removeLoop, load_some, ha, Option.bind_eq_bind, Option.bind_some, if_true, hstore]
  rfl

/-- An entry between two others is taken out: they are linked to each other. -/
theorem removeLoop_middle (c : Addr) (before after : LinkedEntry)
    (ha : l.heap a = some { data := data, next := some c, prev := some b })
    (hb : l.heap b = some before) (hc : l.heap c = some after) (hab : a ≠ b) (hcb : c ≠ b) :
    removeLoop data (rounds + 1) (some a) l =
      some (free { l with
        heap := Function.update (Function.update l.heap b (some { before with next := some c }))
          c (some { after with prev := some b }) } a) := by
  let linked : LinkedList :=
    { l with heap := Function.update l.heap b (some { before with next := some c }) }
  have hstore : (l.store (some b) fun before => { before with next := some c }) = some linked :=
    store_some l b before _ hb
  have hload : linked.load (some a) = some { data := data, next := some c, prev := some b } := by
    rw [load_some, ← ha]
    exact Function.update_of_ne hab _ _
  have hstore' := store_some linked c after (fun after => { after with prev := some b })
    ((Function.update_of_ne hcb _ _).trans hc)
  simp only [removeLoop, load_some, ha, Option.bind_eq_bind, Option.bind_some, if_true,
    reduceCtorEq, if_false, hstore]
  rw [← load_some, hload, Option.bind_some, hstore']
  rfl

end Round

/-- The entry after another one is taken out, at the end or between two others. -/
theorem unlink_represents (b c : Addr × U32) (rest : List (Addr × U32)) (l' : LinkedList)
    (h : Represents l (cells ++ b :: c :: rest)) (hfirst : l'.first = l.first)
    (hlast : rest ≠ [] → l'.last = l.last) (hlast' : rest = [] → l'.last = some b.1)
    (hblocks : l'.blocks = l.blocks - 1)
    (hb : l'.heap b.1 = some { data := b.2, next := front rest none, prev := back none cells })
    (hnext : ∀ d rest', rest = d :: rest' →
      l'.heap d.1 = some { data := d.2, next := front rest' none, prev := some b.1 })
    (hother : ∀ a, a ≠ b.1 → a ≠ c.1 → some a ≠ front rest none → l'.heap a = l.heap a) :
    Represents l' (cells ++ b :: rest) where
  first := by
    rw [hfirst, h.first, front_append, front_append]
    rfl
  last := by
    by_cases hrest : rest = []
    · rw [hlast' hrest, hrest, back_append]
      rfl
    · rw [hlast hrest, h.last]
      rcases List.exists_cons_of_ne_nil hrest with ⟨d, rest', rfl⟩
      rw [back_append, back_append]
      rfl
  segment := segment_unlink cells b c rest h.segment hb hnext hother
  blocks := by
    rw [hblocks, h.blocks]
    simp only [List.length_append, List.length_cons]
    omega

/-- The loop has found the value, at the end of the list or between two others. -/
theorem removeLoop_found (data : U32) (b c : Addr × U32) (rest : List (Addr × U32)) (rounds : Nat)
    (h : Represents l (cells ++ b :: c :: rest)) (hdata : c.2 = data) :
    ∃ l', removeLoop data (rounds + 1) (some c.1) l = some l' ∧
      Represents l' (cells ++ b :: rest) := by
  have hb := h.segment.cell
  have hcb := h.segment.apart c List.mem_cons_self
  have hfrom := h.segment
  rw [List.append_cons] at hfrom
  have hc := hfrom.cell
  rw [back_append, back_singleton, hdata] at hc
  -- At the end one pointer is assigned, and between two others one on either side.
  cases rest with
  | nil =>
      refine ⟨_, removeLoop_last l data c.1 b.1 rounds _ hc hb, ?_⟩
      refine unlink_represents l cells b c [] _ h rfl nofun (fun _ => rfl) rfl ?_ nofun ?_
      · simp only [free_heap, Function.update_of_ne hcb.symm, Function.update_self]
        rfl
      · intro a hab hac _
        simp only [free_heap, Function.update_of_ne hac, Function.update_of_ne hab]
  | cons d rest =>
      have hdb := h.segment.apart d (List.mem_cons_of_mem c List.mem_cons_self)
      have hdc := hfrom.apart d List.mem_cons_self
      rw [List.append_cons] at hfrom
      refine ⟨_, removeLoop_middle l data c.1 b.1 rounds d.1 _ _ hc hb hfrom.cell hcb hdb, ?_⟩
      refine unlink_represents l cells b c (d :: rest) _ h rfl (fun _ => rfl) nofun rfl ?_ ?_ ?_
      · simp only [free_heap, Function.update_of_ne hcb.symm, Function.update_of_ne hdb.symm,
          Function.update_self]
        rfl
      · rintro _ _ ⟨⟩
        simp only [free_heap, Function.update_of_ne hdc, Function.update_self]
      · intro a hab hac had
        have had : a ≠ d.1 := fun hsame => had (congrArg some hsame)
        simp only [free_heap, Function.update_of_ne hac, Function.update_of_ne had,
          Function.update_of_ne hab]

/-- The loop takes the first occurrence out of what is still ahead. -/
theorem removeLoop_represents (data : U32) (b : Addr × U32) (rest : List (Addr × U32))
    (rounds : Nat) (h : Represents l (cells ++ b :: rest)) (hrounds : rest.length < rounds) :
    ∃ l', removeLoop data rounds (front rest none) l = some l' ∧
      Represents l' (cells ++ b :: rest.eraseP (fun c => c.2 = data)) := by
  -- The entry before the current one moves along, since its pointers may be assigned.
  induction rest generalizing cells b rounds with
  | nil =>
      rcases Nat.exists_eq_add_of_lt hrounds with ⟨k, rfl⟩
      exact ⟨l, rfl, h⟩
  | cons c rest ih =>
      cases rounds with
      | zero => exact absurd hrounds (Nat.not_lt_zero _)
      | succ rounds =>
          by_cases hdata : c.2 = data
          · rw [List.eraseP_cons_of_pos (by simpa using hdata)]
            exact removeLoop_found l cells data b c rest rounds h hdata
          · rw [List.append_cons] at h
            rw [List.eraseP_cons_of_neg (by simpa using hdata), front_cons,
              removeLoop_other l data c.1 rounds _ h.segment.cell hdata]
            rcases ih (cells ++ [b]) c rounds h (Nat.lt_of_succ_lt_succ hrounds)
              with ⟨l', hl', hrep⟩
            rw [← List.append_cons] at hrep
            exact ⟨l', hl', hrep⟩

/-! #### The first entry -/

section First

variable (data : U32) (a : Addr) (entry : LinkedEntry)

theorem removeEntryFromList_none (hfirst : l.first = none) : removeEntryFromList data l = none := by
  simp only [removeEntryFromList, hfirst, Option.bind_eq_bind, Option.bind_none]

theorem removeEntryFromList_other (hfirst : l.first = some a) (ha : l.heap a = some entry)
    (hdata : entry.data ≠ data) :
    removeEntryFromList data l = removeLoop data (l.blocks + 1) entry.next l := by
  simp only [removeEntryFromList, hfirst, Option.bind_eq_bind, Option.bind_some, load_some, ha,
    if_neg hdata]

/-- The only entry is taken out. -/
theorem removeEntryFromList_only (hfirst : l.first = some a) (ha : l.heap a = some entry)
    (hdata : entry.data = data) (hnext : entry.next = none) :
    removeEntryFromList data l = some { l.free a with first := none, last := none } := by
  simp only [removeEntryFromList, hfirst, Option.bind_eq_bind, Option.bind_some, load_some, ha,
    if_pos hdata, if_pos hnext]
  rfl

/-- The first of several entries is taken out: the second one becomes the first. -/
theorem removeEntryFromList_first (b : Addr) (second : LinkedEntry) (hfirst : l.first = some a)
    (ha : l.heap a = some entry) (hdata : entry.data = data) (hnext : entry.next = some b)
    (hb : l.heap b = some second) :
    removeEntryFromList data l =
      some (free { l with
        first := some b
        heap := Function.update l.heap b (some { second with prev := none }) } a) := by
  have hstore := store_some { l with first := some b } b second
    (fun first => { first with prev := none }) hb
  simp only [removeEntryFromList, hfirst, Option.bind_eq_bind, Option.bind_some, load_some, ha,
    if_pos hdata, hnext, reduceCtorEq, if_false, hstore]
  rfl

end First

/-- From a list with an entry the first occurrence of a value is taken out. -/
theorem removeEntryFromList_represents (data : U32) (h : Represents l cells) (hsome : cells ≠ []) :
    ∃ l', removeEntryFromList data l = some l' ∧
      Represents l' (cells.eraseP fun c => c.2 = data) := by
  rcases List.exists_cons_of_ne_nil hsome with ⟨c, rest, rfl⟩
  have hfirst : l.first = some c.1 := h.first
  have hc := h.segment.1
  by_cases hdata : c.2 = data
  · -- The first entry has nothing before it, so it is not taken out by the loop.
    rw [List.eraseP_cons_of_pos (by simpa using hdata)]
    cases rest with
    | nil =>
        refine ⟨_, removeEntryFromList_only l data c.1 _ hfirst hc hdata rfl,
          ⟨rfl, rfl, trivial, ?_⟩⟩
        simp only [free, h.blocks, List.length_singleton, Nat.sub_self, List.length_nil]
    | cons d rest =>
        have hlinked : Segment l.heap none ([] ++ c :: d :: rest) none := h.segment
        have hdc := hlinked.apart d List.mem_cons_self
        refine ⟨_, removeEntryFromList_first l data c.1 _ d.1 _ hfirst hc hdata rfl h.segment.2.1,
          ⟨rfl, h.last, segment_tail c d rest none h.segment ?_ fun a hac had => ?_, ?_⟩⟩
        · simp only [free_heap, Function.update_of_ne hdc, Function.update_self]
        · simp only [free_heap, Function.update_of_ne hac, Function.update_of_ne had]
        · simp only [free, h.blocks, List.length_cons, Nat.add_sub_cancel]
  · rw [List.eraseP_cons_of_neg (by simpa using hdata),
      removeEntryFromList_other l data c.1 _ hfirst hc hdata]
    refine removeLoop_represents l [] data c rest (l.blocks + 1) h ?_
    rw [h.blocks, List.length_cons]
    omega

/-! #### The last entry -/

section Last

variable (data : U32) (a : Addr)

theorem addEntryToList_only (hfirst : l.first = none) :
    addEntryToList (some a) data l =
      some { l.alloc a { data := data, next := none, prev := none } with
        first := some a, last := some a } := by
  have hnew : (l.alloc a { data := data, next := none, prev := none }).first = none := hfirst
  simp only [addEntryToList, Option.bind_eq_bind, Option.bind_some, if_pos hnew]
  rfl

/-- The new entry is linked behind the last one. -/
theorem addEntryToList_last (b : Addr) (before : LinkedEntry) (hfirst : l.first ≠ none)
    (hlast : l.last = some b) (hb : l.heap b = some before) (hba : b ≠ a) :
    addEntryToList (some a) data l =
      some { l with
        last := some a
        heap := Function.update (Function.update l.heap b (some { before with next := some a }))
          a (some { data := data, next := none, prev := some b })
        blocks := l.blocks + 1 } := by
  let new := l.alloc a { data := data, next := none, prev := none }
  let linked : LinkedList :=
    { new with heap := Function.update new.heap b (some { before with next := some a }) }
  have hstore : (new.store (some b) fun entry => { entry with next := some a }) = some linked :=
    store_some new b before _ ((Function.update_of_ne hba _ _).trans hb)
  have ha : linked.heap a = some { data := data, next := none, prev := none } :=
    (Function.update_of_ne hba.symm _ _).trans (Function.update_self _ _ _)
  have hstore' := store_some linked a _ (fun entry => { entry with prev := some b }) ha
  have hheap : Function.update linked.heap a (some { data := data, next := none, prev := some b }) =
      Function.update (Function.update l.heap b (some { before with next := some a })) a
        (some { data := data, next := none, prev := some b }) := by
    -- The new entry is assigned twice, and the other one in between.
    rw [show linked.heap = Function.update (Function.update l.heap a _) b _ from rfl,
      Function.update_comm hba.symm, Function.update_idem]
  have hnew : (l.alloc a { data := data, next := none, prev := none }).first ≠ none := hfirst
  have hlast' : (l.alloc a { data := data, next := none, prev := none }).last = some b := hlast
  simp only [addEntryToList, Option.bind_eq_bind, Option.bind_some, if_neg hnew, hlast']
  rw [hstore, Option.bind_some, show linked.last = some b from hlast, hstore', hheap]
  rfl

end Last

/-- An entry is added at the end. -/
theorem addEntryToList_represents (a : Addr) (data : U32) (h : Represents l cells)
    (hfresh : l.heap a = none) :
    ∃ l', addEntryToList (some a) data l = some l' ∧ Represents l' (cells ++ [(a, data)]) := by
  rcases List.eq_nil_or_concat' cells with rfl | ⟨cells, b, rfl⟩
  · refine ⟨_, addEntryToList_only l data a h.first, ⟨rfl, rfl, ⟨?_, trivial⟩, ?_⟩⟩
    · exact Function.update_self _ _ _
    · simp only [alloc, h.blocks, List.length_nil, List.length_append, List.length_singleton]
  · -- The new block is not the last entry's, since that is in use.
    have hb := h.segment.cell
    have hba : b.1 ≠ a := by
      rintro rfl
      cases hfresh.symm.trans hb
    have hfirst : l.first ≠ none := by
      rw [h.first, Ne, front_eq_none]
      exact List.append_ne_nil_of_right_ne_nil cells (List.cons_ne_nil b [])
    have hlast : l.last = some b.1 := by rw [h.last, back_append, back_singleton]
    refine ⟨_, addEntryToList_last l data a b.1 _ hfirst hlast hb hba, ⟨?_, ?_, ?_, ?_⟩⟩
    · rw [h.first, front_append, front_append, front_append]
      rfl
    · rw [back_append]
      rfl
    · refine segment_snoc cells b (a, data) h.segment ?_ ?_ ?_ ?_
      · exact fun hmem => h.segment.found a hmem hfresh
      · simp only [Function.update_of_ne hba, Function.update_self]
      · exact Function.update_self _ _ _
      · intro a' hab haa
        simp only [Function.update_of_ne haa, Function.update_of_ne hab]
    · rw [h.blocks]
      simp only [List.length_append, List.length_singleton]

end Changing

end LinkedList

/-! ### Calls and what they mean -/

/-- A call of one of the functions that change a list, with what `malloc` returns. -/
inductive ListCall where
  | add (malloc : Option Addr) (data : U32)
  | remove (data : U32)

def ListCall.perform : ListCall → LinkedList → Option LinkedList
  | add malloc data => LinkedList.addEntryToList malloc data
  | remove data => LinkedList.removeEntryFromList data

/-- What the call does to a sequence. -/
def ListCall.meaning : ListCall → List U32 → List U32
  | add _ data, values => values ++ [data]
  | remove data, values => values.erase data

/-- A call on the list, if the ones before it had a result, and on the sequence beside it. -/
def listStep (s : Option LinkedList × List U32) (call : ListCall) :
    Option LinkedList × List U32 :=
  (s.1.bind call.perform, call.meaning s.2)

/-- The list is doubly linked, and its readers tell this sequence. An array without words
    needs no block, so there `malloc` may return `NULL`. -/
structure Shows (l : LinkedList) (values : List U32) : Prop where
  wellLinked : WellLinked l.heap l.first l.last
  getAllEntries : ∀ malloc, (malloc = none → values = []) →
    ∃ size, l.getAllEntries malloc = some (size, values) ∧ size.toNat = values.length
  isInList : ∀ data, l.isInList data = some (if data ∈ values then 1 else 0)

/-- The call has a result, and then the list shows the sequence. -/
def ShowsAfter (s : Option LinkedList × List U32) (call : ListCall) : Prop :=
  ∃ l, (listStep s call).1 = some l ∧ Shows l (listStep s call).2

/-- `malloc` does not hand out a block that is in use. -/
def Unused (s : Option LinkedList × List U32) : ListCall → Prop
  | .add (some a) _ => (s.1.bind fun l => l.heap a) = none
  | .add none _ | .remove _ => True

/-- An addition gets a block and leaves fewer than `2 ^ 32` values, and a removal finds the
    list not empty. -/
def Within (s : Option LinkedList × List U32) : ListCall → Prop
  | .add malloc _ => malloc ≠ none ∧ s.2.length + 1 < 2 ^ 32
  | .remove _ => s.2 ≠ []

instance (s : Option LinkedList × List U32) (call : ListCall) : Decidable (Unused s call) :=
  match call with
  | .add (some _) _ => inferInstanceAs (Decidable (_ = none))
  | .add none _ | .remove _ => isTrue trivial

instance (s : Option LinkedList × List U32) (call : ListCall) : Decidable (Within s call) :=
  match call with
  | .add _ _ => inferInstanceAs (Decidable (_ ∧ _))
  | .remove _ => inferInstanceAs (Decidable (_ ≠ []))

/-! ### Every sequence of calls -/

section Steps

variable {l : LinkedList} {cells : List (Addr × U32)}

theorem Represents.isInList (h : Represents l cells) (data : U32) :
    l.isInList data = some (if data ∈ cells.map Prod.snd then 1 else 0) := by
  rw [LinkedList.isInList, h.first, LinkedList.isInLoop_eq l h.segment _ data]
  rw [h.blocks]
  exact Nat.lt_succ_self _

/-- What is linked through some entries shows their values, if the size can count them. -/
theorem Represents.shows (h : Represents l cells) (hlength : cells.length < 2 ^ 32) :
    Shows l (cells.map Prod.snd) where
  wellLinked := by
    rw [h.first, h.last]
    exact h.segment.wellLinked
  getAllEntries := by
    intro malloc hnull
    have hrounds : cells.length < l.blocks + 1 := h.blocks ▸ Nat.lt_succ_self _
    have hsize : (BitVec.ofNat 32 cells.length).toNat = cells.length :=
      Nat.mod_eq_of_lt hlength
    have hwords : (LinkedList.words malloc (BitVec.ofNat 32 cells.length)).length =
        cells.length := by
      cases malloc with
      | none =>
          rw [List.map_eq_nil_iff.mp (hnull rfl)]
          rfl
      | some contents => rw [LinkedList.words, List.length_map, List.length_range, hsize]
    have hcount := LinkedList.countEntries_eq l h.segment _ 0 hrounds
    have hcopy := LinkedList.copyEntries_eq l h.segment _ 0 [] _ hrounds rfl hwords (by simpa)
    rw [show (0 : U32) + BitVec.ofNat 32 cells.length = _ from BitVec.zero_add _] at hcount
    rw [List.nil_append] at hcopy
    refine ⟨BitVec.ofNat 32 cells.length, ?_, hsize.trans (List.length_map Prod.snd).symm⟩
    rw [LinkedList.getAllEntries, h.first, hcount, Option.bind_eq_bind, Option.bind_some, hcopy]
    rfl
  isInList := h.isInList

/-- Such a call takes the list and the sequence to what belongs together again. -/
theorem Represents.perform (h : Represents l cells) (call : ListCall)
    (hunused : Unused (some l, cells.map Prod.snd) call)
    (hwithin : Within (some l, cells.map Prod.snd) call) :
    ∃ l' cells', call.perform l = some l' ∧ Represents l' cells' ∧
      call.meaning (cells.map Prod.snd) = cells'.map Prod.snd := by
  cases call with
  | add malloc data =>
      rcases Option.ne_none_iff_exists'.mp hwithin.1 with ⟨a, rfl⟩
      rcases LinkedList.addEntryToList_represents l cells a data h hunused with ⟨l', hl', hrep⟩
      refine ⟨l', _, hl', hrep, ?_⟩
      rw [List.map_append]
      rfl
  | remove data =>
      have hsome : cells ≠ [] := fun hnil => hwithin (hnil ▸ rfl)
      rcases LinkedList.removeEntryFromList_represents l cells data h hsome with ⟨l', hl', hrep⟩
      refine ⟨l', _, hl', hrep, ?_⟩
      rw [ListCall.meaning, List.erase_eq_eraseP', List.eraseP_map]
      rfl

/-- The entries of the routing table hold sequences in place of linked lists; what the
    handlers do to a list is what they do to its sequence there. -/
theorem Represents.addIfAbsent (h : Represents l cells) (a : Addr) (data : U32)
    (hunused : l.heap a = none) :
    ∃ l' cells', LinkedList.addUnlessInList (some a) data l = some l' ∧ Represents l' cells' ∧
      OpenManet.addIfAbsent (cells.map Prod.snd) data = cells'.map Prod.snd := by
  rw [LinkedList.addUnlessInList, OpenManet.addIfAbsent, h.isInList data]
  by_cases hdata : data ∈ cells.map Prod.snd
  · rw [if_pos hdata, if_pos hdata]
    exact ⟨l, cells, rfl, h, rfl⟩
  · rw [if_neg hdata, if_neg hdata]
    rcases LinkedList.addEntryToList_represents l cells a data h hunused with ⟨l', hl', hrep⟩
    refine ⟨l', _, hl', hrep, ?_⟩
    rw [List.map_append]
    rfl

end Steps

/-- Before a call the list is linked through entries with the values of the sequence, and
    the size can count them. -/
def Linked (s : Option LinkedList × List U32) : Prop :=
  ∃ l cells, s = (some l, cells.map Prod.snd) ∧ Represents l cells ∧ cells.length < 2 ^ 32

/-- What the call does, on a list like that. -/
theorem linked_step (s : Option LinkedList × List U32) (call : ListCall) (hs : Linked s)
    (hunused : Unused s call) (hwithin : Within s call) : Linked (listStep s call) := by
  rcases hs with ⟨l, cells, rfl, h, hlength⟩
  rcases h.perform call hunused hwithin with ⟨l', cells', hl', hrep, hvalues⟩
  refine ⟨l', cells', Prod.ext hl' hvalues, hrep, ?_⟩
  rw [← List.length_map Prod.snd, ← hvalues]
  cases call with
  | add malloc data =>
      rw [ListCall.meaning, List.length_append]
      exact hwithin.2
  | remove data =>
      refine Nat.lt_of_le_of_lt List.erase_sublist.length_le ?_
      rw [List.length_map]
      exact hlength

/-- A call leaves the list as the sequence exactly when it is within its bounds. -/
theorem showsAfter_iff (s : Option LinkedList × List U32) (call : ListCall) (hs : Linked s)
    (hunused : Unused s call) : ShowsAfter s call ↔ Within s call := by
  constructor
  · rcases hs with ⟨l, cells, rfl, h, -⟩
    rintro ⟨l', hl', hshows⟩
    cases call with
    | add malloc data =>
        refine ⟨?_, ?_⟩
        · rintro rfl
          cases hl'
        · -- The size counts what there is then, so it has not come round to zero.
          rcases hshows.getAllEntries (some fun _ => 0) nofun with ⟨size, -, hsize⟩
          have hlt := size.isLt
          rw [hsize] at hlt
          simpa only [listStep, ListCall.meaning, List.length_append, List.length_singleton]
            using hlt
    | remove data =>
        intro hnil
        rw [List.map_eq_nil_iff.mp hnil] at h
        cases (LinkedList.removeEntryFromList_none l data h.first).symm.trans hl'
  · intro hwithin
    rcases linked_step s call hs hunused hwithin with ⟨l, cells, hstep, h, hlength⟩
    rw [ShowsAfter, hstep]
    exact ⟨l, rfl, h.shows hlength⟩

/-- From an initialised list, with blocks that are not in use, every call has a result and
    leaves the list as the sequence exactly when every call is within its bounds. -/
theorem linkedList_iff (calls : List ListCall)
    (hunused : AllSteps listStep Unused (some .init, []) calls) :
    AllSteps listStep ShowsAfter (some .init, []) calls ↔
      AllSteps listStep Within (some .init, []) calls := by
  have hinit : Linked (some .init, []) :=
    ⟨.init, [], rfl, ⟨rfl, rfl, trivial, rfl⟩, Nat.two_pow_pos 32⟩
  have hboth := allSteps_congr listStep (fun s call => Unused s call ∧ ShowsAfter s call)
    (fun s call => Unused s call ∧ Within s call) Linked
    (fun s call hs => and_congr_right (showsAfter_iff s call hs))
    (fun s call hs h => linked_step s call hs h.1 ((showsAfter_iff s call hs h.1).mp h.2))
    _ calls hinit
  rw [allSteps_and, allSteps_and] at hboth
  exact ⟨fun h => (hboth.mp ⟨hunused, h⟩).2, fun h => (hboth.mpr ⟨hunused, h⟩).2⟩

/-- Three values come and the middle one goes again. -/
theorem linkedList_iff_middle :
    AllSteps listStep ShowsAfter (some .init, [])
      [.add (some 1) 7, .add (some 2) 8, .add (some 3) 9, .remove 8] :=
  (linkedList_iff _ (by decide)).mpr (by decide)

/-- A value is removed from the empty list. -/
theorem not_linkedList_empty :
    ¬ ∀ calls : List ListCall, AllSteps listStep Unused (some .init, []) calls →
      AllSteps listStep ShowsAfter (some .init, []) calls := by
  intro h
  rcases (h [.remove 7] (by decide)).1 with ⟨l, hl, -⟩
  cases hl

end OpenManet
