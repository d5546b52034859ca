import OpenManet.Core.EntryLists
import OpenManet.Theory.Effect
import OpenManet.Theory.LinkedLists

/-!
# The Lists of the Entries Over Whole Runs

The table of the machine holds sequences, and the program linked lists. Over whole runs
the two are the same: what the handlers do to the lists of an entry, from the moment it
is made to the moment it is freed, never follows `NULL` or a pointer to what has been
freed, and every list holds the sequence the table has in its place.

A list has no blocks but those of its entries, so what is freed with it is all that has
been handed out for it. There is one exception. `free_linked_list` returns early when
the list is empty, before it frees the `linked_list` itself. So every removal of an entry
leaves behind as many blocks as it has empty lists, and nothing else is ever lost.

## Main definitions

* `Owns`: A list that holds given values and has no other blocks.
* `EntryLists.Holds`, `ListMemory.Holds`: The lists in memory and the table.
* `listMove`: The lists and the count of the empty ones go along with the machine.

## Theorems

* `Owns.addEntryToList`, `Owns.freeLinkedList`: What the functions do to such a list.
* `listMemory_apply`: What an operation does to all lists.
* `entry_lists_run`: The lists in every run, and what is left behind.
-/

namespace OpenManet

/-- The list holds these values, and has no blocks but those of its entries. -/
def Owns (l : LinkedList) (values : List U32) : Prop :=
  ∃ cells, Represents l cells ∧ cells.map Prod.snd = values ∧
    ∀ a, l.heap a ≠ none → a ∈ cells.map Prod.fst

/-! ### One list -/

section Lists

variable {l : LinkedList} {values : List U32}

theorem owns_init : Owns .init [] := ⟨[], ⟨rfl, rfl, trivial, rfl⟩, rfl, fun _ h => absurd rfl h⟩

/-- An assignment makes no block. -/
theorem store_none {p : Option Addr} {assign : LinkedEntry → LinkedEntry} {l' : LinkedList}
    (h : l.store p assign = some l') (b : Addr) (hb : l.heap b = none) : l'.heap b = none := by
  cases p with
  | none => cases h
  | some a =>
      cases ha : l.heap a with
      | none =>
          simp only [LinkedList.store, Option.bind_eq_bind, Option.bind_some, ha] at h
          cases h
      | some entry =>
          rw [LinkedList.store_some l a entry assign ha, Option.some.injEq] at h
          have hba : b ≠ a := by
            rintro rfl
            cases hb.symm.trans ha
          rw [← h]
          exact (Function.update_of_ne hba _ _).trans hb

/-- An addition makes the one block. -/
theorem addEntryToList_none {a : Addr} {data : U32} {l' : LinkedList}
    (h : l.addEntryToList (some a) data = some l') (b : Addr) (hba : b ≠ a)
    (hb : l.heap b = none) : l'.heap b = none := by
  have hnew : (l.alloc a { data := data, next := none, prev := none }).heap b = none :=
    (Function.update_of_ne hba _ _).trans hb
  simp only [LinkedList.addEntryToList, Option.bind_eq_bind, Option.bind_some] at h
  split at h
  · cases h
    exact hnew
  · rcases Option.bind_eq_some_iff.mp h with ⟨l₁, h₁, hrest⟩
    rcases Option.bind_eq_some_iff.mp hrest with ⟨l₂, h₂, hlast⟩
    cases hlast
    exact store_none h₂ b (store_none h₁ b hnew)

theorem Owns.addEntryToList (h : Owns l values) (a : Addr) (hfresh : l.heap a = none)
    (data : U32) :
    ∃ l', l.addEntryToList (some a) data = some l' ∧ Owns l' (values ++ [data]) := by
  rcases h with ⟨cells, hrep, rfl, hblocks⟩
  rcases LinkedList.addEntryToList_represents l cells a data hrep hfresh with ⟨l', hl', hrep'⟩
  refine ⟨l', hl', _, hrep', ?_, fun b hb => ?_⟩
  · rw [List.map_append]
    rfl
  · rw [List.map_append, List.mem_append]
    by_cases hba : b = a
    · exact Or.inr (hba ▸ List.mem_cons_self)
    · exact Or.inl (hblocks b fun hnone => hb (addEntryToList_none hl' b hba hnone))

theorem Owns.addUnlessInList (h : Owns l values) (a : Addr) (hfresh : l.heap a = none)
    (data : U32) :
    ∃ l', l.addUnlessInList (some a) data = some l' ∧ Owns l' (addIfAbsent values data) := by
  rcases h with ⟨cells, hrep, rfl, hblocks⟩
  rw [LinkedList.addUnlessInList, addIfAbsent, hrep.isInList data]
  by_cases hdata : data ∈ cells.map Prod.snd
  · rw [if_pos hdata, if_pos hdata]
    exact ⟨l, rfl, cells, hrep, rfl, hblocks⟩
  · rw [if_neg hdata, if_neg hdata]
    exact Owns.addEntryToList ⟨cells, hrep, rfl, hblocks⟩ a hfresh data

/-- The loop frees the entries from where it is on, and nothing else. -/
theorem freeLoop_eq {cells : List (Addr × U32)} {before : Option Addr} (rounds : Nat)
    (hcells : Segment l.heap before cells none) (hrounds : cells.length < rounds) :
    ∃ l', l.freeLoop rounds (front cells none) = some l' ∧
      l'.blocks = l.blocks - cells.length ∧
        ∀ a, l'.heap a ≠ none → l.heap a ≠ none ∧ a ∉ cells.map Prod.fst := by
  induction cells generalizing before rounds l with
  | nil =>
      rcases Nat.exists_eq_add_of_lt hrounds with ⟨k, rfl⟩
      exact ⟨l, rfl, rfl, fun a ha => ⟨ha, List.not_mem_nil⟩⟩
  | cons c rest ih =>
      cases rounds with
      | zero => exact absurd hrounds (Nat.not_lt_zero _)
      | succ rounds =>
          have hnodup := hcells.nodup
          rw [List.map_cons, List.nodup_cons] at hnodup
          -- The entries behind the first are not touched when it is freed.
          have hrest : Segment (l.free c.1).heap (some c.1) rest none := by
            refine hcells.2.congr fun d hd => Function.update_of_ne ?_ _ _
            rintro hsame
            exact hnodup.1 (hsame ▸ List.mem_map_of_mem hd)
          rcases ih (l := l.free c.1) rounds hrest (Nat.lt_of_succ_lt_succ hrounds) with
            ⟨l', hl', hblocks, hheap⟩
          refine ⟨l', ?_, ?_, fun a ha => ?_⟩
          · simp only [front_cons, LinkedList.freeLoop, LinkedList.load_some, hcells.1,
              Option.bind_eq_bind, Option.bind_some]
            exact hl'
          · rw [hblocks, List.length_cons, Nat.add_comm]
            exact Nat.sub_sub l.blocks 1 rest.length
          · rcases hheap a ha with ⟨hkept, hbehind⟩
            have hac : a ≠ c.1 := by
              rintro rfl
              exact hkept (Function.update_self _ _ _)
            rw [LinkedList.free_heap, Function.update_of_ne hac] at hkept
            refine ⟨hkept, ?_⟩
            rw [List.map_cons, List.mem_cons, not_or]
            exact ⟨hac, hbehind⟩

/-- A list is freed with all its entries, or left alone if it is empty. -/
theorem Owns.freeLinkedList (h : Owns l values) :
    ∃ l', l.freeLinkedList = some (l', decide (values ≠ [])) ∧ l'.blocks = 0 ∧
      ∀ a, l'.heap a = none := by
  rcases h with ⟨cells, hrep, rfl, hblocks⟩
  unfold LinkedList.freeLinkedList
  by_cases hempty : cells = []
  · rw [if_pos (by rw [hrep.first, hempty]; rfl)]
    refine ⟨l, ?_, by rw [hrep.blocks, hempty]; rfl, fun a => ?_⟩
    · rw [hempty]
      rfl
    · by_contra hsome
      have hmem := hblocks a hsome
      rw [hempty] at hmem
      exact absurd hmem List.not_mem_nil
  · rw [if_neg (by rw [hrep.first, front_eq_none]; exact hempty), hrep.first]
    rcases freeLoop_eq (l.blocks + 1) hrep.segment (by rw [hrep.blocks]; exact Nat.lt_succ_self _)
      with ⟨l', hl', hcount, hheap⟩
    refine ⟨l', ?_, ?_, fun a => ?_⟩
    · rw [hl', decide_eq_true (by rw [Ne, List.map_eq_nil_iff]; exact hempty)]
      rfl
    · rw [hcount, hrep.blocks, Nat.sub_self]
    · by_contra hsome
      rcases hheap a hsome with ⟨hkept, hbehind⟩
      exact hbehind (hblocks a hkept)

end Lists

/-! ### All lists -/

/-- The lists hold the sequences of the entry. -/
structure EntryLists.Holds (l : EntryLists) (e : RoutingEntry) : Prop where
  precursorList : Owns l.precursorList e.precursorList
  nextHopFor : Owns l.nextHopFor e.nextHopFor

/-- There are lists for the entries of the table and for no others. -/
def ListMemory.Holds (m : ListMemory) (n : Node) : Prop :=
  ∀ i, Option.Rel EntryLists.Holds (m.lists i) (n.routes.slots i)

/-- `malloc` hands out a block that is not in use. -/
def Allocates (malloc : Malloc) : Prop :=
  ∀ o n l values, Owns l values → ∃ a, malloc o n l = some a ∧ l.heap a = none

/-- The operation makes no lists, adds to none and frees none. -/
def Op.KeepsLists : Op → Prop
  | create _ _ _ _ _ _ _ | previousHop _ _ _ _ | write _ (.precursor _) | removeEntry _ => False
  | _ => True

theorem onLists_keep (malloc : Malloc) (o : Op) (hkeeps : o.KeepsLists) (n : Node)
    (m : ListMemory) : o.onLists malloc n m = some m ∧ o.emptyLists n = 0 := by
  cases o with
  | create | previousHop | removeEntry => exact absurd hkeeps id
  | write ip w =>
      cases w with
      | precursor => exact absurd hkeeps id
      | timer | stopTimer | searchNone | forgetRreqId => exact ⟨rfl, rfl⟩
  | _ => exact ⟨rfl, rfl⟩

theorem effect_lists (n : Node) (o : Op) (hkeeps : o.KeepsLists) (ip : U32)
    (f : RoutingEntry → RoutingEntry) (heff : o.effect n = .update ip f) (e : RoutingEntry) :
    (f e).precursorList = e.precursorList ∧ (f e).nextHopFor = e.nextHopFor := by
  cases o with
  | reverseRoute | hello | forwardRoute =>
      have hframe := effect_frame n _ ip f heff trivial e
      exact ⟨hframe.precursorList, hframe.nextHopFor⟩
  | activate ip =>
      cases heff
      rw [activate_eq]
      exact ⟨rfl, rfl⟩
  | write ip w =>
      cases heff
      cases w with
      | precursor => exact absurd hkeeps id
      | timer | stopTimer | searchNone | forgetRreqId => exact ⟨rfl, rfl⟩
  | previousHop => exact absurd hkeeps id
  | searchFound | breakRoute | linkBreak | outgoingBreak | expireRoute | startSearch
  | searchFailed =>
      cases heff
      exact ⟨rfl, rfl⟩
  | create | removeEntry | beginWait | moveWaiter | moveHello | incrementSequenceNum
  | writeSequenceNum | sendRreq | sendUnicast | sendBroadcast => cases heff

section Memory

variable {m : ListMemory} {n : Node}

/-- The lists that belong to an entry are there. -/
theorem ListMemory.Holds.found (h : m.Holds n) {i : Fin 256} {e : RoutingEntry}
    (he : n.routes.slots i = some e) : ∃ l, m.lists i = some l ∧ l.Holds e := by
  have hi := h i
  rw [he] at hi
  cases hlists : m.lists i with
  | none =>
      rw [hlists] at hi
      cases hi
  | some l =>
      rw [hlists] at hi
      cases hi with
      | some hl => exact ⟨l, rfl, hl⟩

theorem ListMemory.Holds.missing (h : m.Holds n) {i : Fin 256} (he : n.routes.slots i = none) :
    m.lists i = none := by
  have hi := h i
  rw [he] at hi
  cases hlists : m.lists i with
  | none => rfl
  | some l =>
      rw [hlists] at hi
      cases hi

/-- One slot changes on both sides. -/
theorem ListMemory.Holds.set (h : m.Holds n) (n' : Node) (i : Fin 256) (l : Option EntryLists)
    (hslot : Option.Rel EntryLists.Holds l (n'.routes.slots i))
    (hothers : ∀ j, j ≠ i → n'.routes.slots j = n.routes.slots j) : (m.set i l).Holds n' := by
  intro j
  show Option.Rel _ (if j = i then l else m.lists j) _
  by_cases hj : j = i
  · rw [if_pos hj, hj]
    exact hslot
  · rw [if_neg hj, hothers j hj]
    exact h j

/-- An operation that writes to no list. -/
theorem ListMemory.Holds.keep (h : m.Holds n) (o : Op) (hkeeps : o.KeepsLists) :
    m.Holds (o.apply n) := by
  intro i
  rw [apply_slots]
  cases heff : o.effect n with
  | keep => exact h i
  | create e =>
      cases o with
      | create => exact absurd hkeeps id
      | _ => cases heff
  | remove ip =>
      cases o with
      | removeEntry => exact absurd hkeeps id
      | _ => cases heff
  | update ip f =>
      simp only [Effect.slot]
      by_cases hi : i = slotOf ip
      · rw [if_pos hi]
        cases he : n.routes.slots i with
        | none =>
            rw [h.missing he]
            exact .none
        | some e =>
            rcases h.found he with ⟨l, hl, hholds⟩
            rw [hl]
            rcases effect_lists n o hkeeps ip f heff e with ⟨hprecursors, hhops⟩
            refine .some ⟨?_, ?_⟩
            · rw [hprecursors]
              exact hholds.precursorList
            · rw [hhops]
              exact hholds.nextHopFor
      · rw [if_neg hi]
        exact h i

/-- An operation that does something to the lists of one entry. -/
theorem ListMemory.Holds.modify (h : m.Holds n) (o : Op) (ip : U32)
    (f : RoutingEntry → RoutingEntry) (heff : o.effect n = .update ip f)
    (g : EntryLists → Option EntryLists)
    (hg : ∀ l e, l.Holds e → ∃ l', g l = some l' ∧ l'.Holds (f e)) :
    ∃ m', m.modify (slotOf ip) g = some m' ∧ m'.listsLeft = m.listsLeft ∧
      m'.entriesLeft = m.entriesLeft ∧ m'.Holds (o.apply n) := by
  have hothers : ∀ j, j ≠ slotOf ip → (o.apply n).routes.slots j = n.routes.slots j := by
    intro j hj
    rw [apply_slots, heff]
    exact if_neg hj
  have hslot : (o.apply n).routes.slots (slotOf ip) = (n.routes.slots (slotOf ip)).map f := by
    rw [apply_slots, heff]
    exact if_pos rfl
  unfold ListMemory.modify
  cases he : n.routes.slots (slotOf ip) with
  | none =>
      rw [h.missing he]
      refine ⟨m, rfl, rfl, rfl, fun j => ?_⟩
      by_cases hj : j = slotOf ip
      · rw [hj, hslot, he, h.missing he]
        exact .none
      · rw [hothers j hj]
        exact h j
  | some e =>
      rcases h.found he with ⟨l, hl, hholds⟩
      rcases hg l e hholds with ⟨l', hl', hholds'⟩
      rw [hl]
      refine ⟨m.set (slotOf ip) (some l'), ?_, rfl, rfl, h.set _ _ _ ?_ hothers⟩
      · simp only [hl', Option.bind_eq_bind, Option.bind_some]
        rfl
      · rw [hslot, he]
        exact .some hholds'

/-- The lists of an entry are freed with it. -/
theorem ListMemory.Holds.freeEntry (h : m.Holds n) (ip : U32) :
    ∃ m', m.freeEntry (slotOf ip) = some m' ∧
      m'.listsLeft = m.listsLeft + (Op.removeEntry ip).emptyLists n ∧
        m'.entriesLeft = m.entriesLeft ∧ m'.Holds ((Op.removeEntry ip).apply n) := by
  have hothers : ∀ j, j ≠ slotOf ip →
      ((Op.removeEntry ip).apply n).routes.slots j = n.routes.slots j := by
    intro j hj
    rw [apply_slots]
    exact if_neg hj
  have hslot : ((Op.removeEntry ip).apply n).routes.slots (slotOf ip) = none := by
    rw [apply_slots]
    exact if_pos rfl
  unfold ListMemory.freeEntry Op.emptyLists
  cases he : n.routes.slots (slotOf ip) with
  | none =>
      rw [h.missing he]
      simp only [Node.getRoutingEntry_eq, he]
      refine ⟨m, rfl, rfl, rfl, fun j => ?_⟩
      by_cases hj : j = slotOf ip
      · rw [hj, hslot, h.missing he]
        exact .none
      · rw [hothers j hj]
        exact h j
  | some e =>
      rcases h.found he with ⟨l, hl, hholds⟩
      rcases hholds.precursorList.freeLinkedList with ⟨l₁, hfree₁, hblocks₁, -⟩
      rcases hholds.nextHopFor.freeLinkedList with ⟨l₂, hfree₂, hblocks₂, -⟩
      rw [hl]
      simp only [hfree₁, hfree₂, hblocks₁, hblocks₂, Option.bind_eq_bind, Option.bind_some,
        Node.getRoutingEntry_eq, he]
      refine ⟨_, rfl, ?_, rfl, ?_⟩
      · simp [decide_not, Nat.add_assoc]
      · exact h.set _ _ none (by rw [hslot]; exact .none) hothers

/-- What an operation does to the lists is what it does to the sequences. -/
theorem listMemory_apply (malloc : Malloc) (hmalloc : Allocates malloc) (o : Op) (h : m.Holds n) :
    ∃ m', o.onLists malloc n m = some m' ∧ m'.listsLeft = m.listsLeft + o.emptyLists n ∧
      m'.entriesLeft = m.entriesLeft ∧ m'.Holds (o.apply n) := by
  by_cases hkeeps : o.KeepsLists
  · rcases onLists_keep malloc o hkeeps n m with ⟨hsame, hnone⟩
    exact ⟨m, hsame, by rw [hnone, Nat.add_zero], rfl, h.keep o hkeeps⟩
  cases o with
  | create env ip s v hop count time =>
      have hothers : ∀ j, j ≠ slotOf ip →
          ((Op.create env ip s v hop count time).apply n).routes.slots j = n.routes.slots j := by
        intro j hj
        rw [apply_slots]
        exact if_neg hj
      have hslot : ((Op.create env ip s v hop count time).apply n).routes.slots (slotOf ip) =
          some ((n.routes.slots (slotOf ip)).getD (freshEntry env ip s v hop count time)) := by
        rw [apply_slots]
        exact if_pos rfl
      unfold Op.onLists
      simp only []
      cases he : n.routes.slots (slotOf ip) with
      | none =>
          rw [h.missing he]
          refine ⟨m.set (slotOf ip) (some .init), rfl, rfl, rfl, h.set _ _ _ ?_ hothers⟩
          rw [hslot, he]
          exact .some ⟨owns_init, owns_init⟩
      | some e =>
          rcases h.found he with ⟨l, hl, hholds⟩
          rw [hl]
          refine ⟨m, rfl, rfl, rfl, fun j => ?_⟩
          by_cases hj : j = slotOf ip
          · rw [hj, hslot, he, hl]
            exact .some hholds
          · rw [hothers j hj]
            exact h j
  | previousHop env senderIp listed new =>
      refine h.modify _ senderIp _ rfl _ fun l e hholds => ?_
      rcases hmalloc (.previousHop env senderIp listed new) n _ _ hholds.nextHopFor with
        ⟨a, ha, hfresh⟩
      rcases hholds.nextHopFor.addUnlessInList a hfresh listed with ⟨l', hl', howns⟩
      rw [ha, hl']
      refine ⟨_, rfl, ?_, ?_⟩
      · rcases previousHop_eq env new e listed with ⟨t, ht⟩
        rw [ht]
        exact hholds.precursorList
      · rcases previousHop_eq env new e listed with ⟨t, ht⟩
        rw [ht]
        exact howns
  | removeEntry ip => exact h.freeEntry ip
  | write ip w =>
      cases w with
      | precursor p =>
          refine h.modify _ ip _ rfl _ fun l e hholds => ?_
          rcases hmalloc (.write ip (.precursor p)) n _ _ hholds.precursorList with
            ⟨a, ha, hfresh⟩
          rcases hholds.precursorList.addEntryToList a hfresh p with ⟨l', hl', howns⟩
          rw [ha, hl']
          exact ⟨_, rfl, howns, hholds.nextHopFor⟩
      | timer | stopTimer | searchNone | forgetRreqId => exact absurd trivial hkeeps
  | _ => exact absurd trivial hkeeps

end Memory

/-! ### Runs -/

/-- The lists go along with the machine, and so does the count of the empty lists of the
    entries that are removed. -/
def listMove (malloc : Malloc) (o : Op) (n : Node) (g : Option ListMemory × Nat) :
    Option ListMemory × Nat :=
  (g.1.bind (o.onLists malloc n), g.2 + o.emptyLists n)

/-- A step of the machine and its lists. -/
def entryListsStep (malloc : Malloc) :
    Node × Option ListMemory × Nat → Input → Node × Option ListMemory × Nat :=
  shadowStep Op.apply Input.handler (listMove malloc)

/-- There are lists for the table, nothing of them has been lost but the count, and no entry. -/
def ListsSound (n : Node) (g : Option ListMemory × Nat) : Prop :=
  ∃ m, g = (some m, m.listsLeft) ∧ m.entriesLeft = 0 ∧ m.Holds n

/-- From start-up on, with handlers, timers and searches running whole one after another,
    and whatever blocks `malloc` hands out, no call on a list fails, every list holds the
    sequence the table has in its place, no entry of a list is left behind when it goes,
    and as many `linked_list`s are as have been empty then. -/
theorem entry_lists_run (malloc : Malloc) (hmalloc : Allocates malloc) (ip bcast : U32)
    (hello : Nat → Byte) (inputs : List Input) :
    ∃ m, (run (entryListsStep malloc) (Node.boot ip bcast hello, some .start, 0) inputs).2 =
        (some m, m.listsLeft) ∧
      m.entriesLeft = 0 ∧ m.Holds (run step (Node.boot ip bcast hello) inputs) := by
  have hboot : ListMemory.start.Holds (Node.boot ip bcast hello) := fun _ => .none
  have hop : ∀ (o : Op) (n : Node) (g : Option ListMemory × Nat), ListsSound n g →
      ListsSound (o.apply n) (listMove malloc o n g) := by
    rintro o n _ ⟨m, rfl, hentries, hholds⟩
    rcases listMemory_apply malloc hmalloc o hholds with ⟨m', hm', hleft, hkept, hholds'⟩
    exact ⟨m', Prod.ext hm' hleft.symm, hkept.trans hentries, hholds'⟩
  have hinv := run_shadow_invariant Op.apply Input.handler (listMove malloc) ListsSound hop
    (Node.boot ip bcast hello) (some .start, 0) inputs ⟨.start, rfl, rfl, hboot⟩
  rw [run_shadow_state] at hinv
  exact hinv

/-- The first block that is not in use. -/
def firstUnused : Malloc := fun _ _ l =>
  (List.range (l.blocks + 1)).find? fun a => (l.heap a).isNone

theorem allocates_firstUnused : Allocates firstUnused := by
  rintro o n l values ⟨cells, hrep, -, hblocks⟩
  unfold firstUnused
  cases hfind : (List.range (l.blocks + 1)).find? fun a => (l.heap a).isNone with
  | some a =>
      have hnone : (l.heap a).isNone = true := by simpa only using List.find?_some hfind
      exact ⟨a, rfl, Option.isNone_iff_eq_none.mp hnone⟩
  | none =>
      -- More blocks would be in use than there are entries.
      exfalso
      have hused : List.range (l.blocks + 1) ⊆ cells.map Prod.fst := fun a ha => by
        refine hblocks a fun hnone => ?_
        exact List.find?_eq_none.mp hfind a ha (Option.isNone_iff_eq_none.mpr hnone)
      have hlength := (List.nodup_range.subperm hused).length_le
      rw [List.length_range, List.length_map, hrep.blocks] at hlength
      exact Nat.not_succ_le_self _ hlength

/-- A neighbour is heard of and then nothing more, until its entry is removed. -/
def neighbourRemoved : List Input :=
  [receive 0x02000000 (requestFor 1 7 0x03000000 0x04000000 5),
    { env := .clear, event := .expire 0x02000000 }, { env := .clear, event := .expire 0x02000000 }]

/-- It never had a precursor, and the empty list is left behind. -/
theorem entry_lists_run_removed : ∃ m,
    (run (entryListsStep firstUnused)
      (Node.boot 0x01000000 0xFFFFFFFF fun _ => 0, some .start, 0) neighbourRemoved).2 =
        (some m, 1) ∧ m.listsLeft = 1 ∧ m.entriesLeft = 0 := by
  rcases entry_lists_run firstUnused allocates_firstUnused 0x01000000 0xFFFFFFFF (fun _ => 0)
    neighbourRemoved with ⟨m, hm, hentries, -⟩
  have hcount : (run (entryListsStep firstUnused)
      (Node.boot 0x01000000 0xFFFFFFFF fun _ => 0, some .start, 0) neighbourRemoved).2.2 = 1 := rfl
  rw [hm] at hcount ⊢
  exact ⟨m, Prod.ext rfl hcount, hcount, hentries⟩

end OpenManet
