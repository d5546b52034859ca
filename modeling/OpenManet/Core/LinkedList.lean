import OpenManet.Core.Config
import OpenManet.Library.LinkedCells
import Mathlib.Logic.Function.Basic

/-!
# Linked Lists

The doubly linked list of `linked_list.c`, with the blocks `malloc` has handed out for
its entries. A pointer is `NULL` or the address of a block; following `NULL` or the
address of a block that has been freed is undefined, and the functions then have no
result.

The `linked_list` itself is there for every function, so none of the tests for a list
that is not initialised is part of the model. What `malloc` returns is up to the
allocator and comes with the call.

The loops follow the `next` pointers of blocks in use and change no pointer before they
return. One that has more rounds than there are blocks has come back to an entry and
would not end, so the number of blocks bounds the rounds, and a loop that uses them up
has no result either.

## Main definitions

* `Addr`, `LinkedEntry`: Addresses and entries.
* `LinkedList`: A list and the blocks of its entries.
* `load`, `store`, `alloc`, `free`: The heap.
* `addEntryToList`, `removeEntryFromList`: The functions that change a list.
* `getAllEntries`, `isInList`: The functions that read it.
* `freeLinkedList`: The function that frees it.
* `addUnlessInList`: How the handlers use them.
-/

namespace OpenManet

/-- An address other than `NULL`; a pointer is an `Option Addr`. -/
abbrev Addr := Nat

/-- `linked_entry`. -/
abbrev LinkedEntry := LinkedCell Addr U32

/-- `linked_list`, the blocks in use and how many they are. -/
structure LinkedList where
  first : Option Addr
  last : Option Addr
  heap : Addr → Option LinkedEntry
  blocks : Nat

namespace LinkedList

/-- A list with both its pointers `NULL`. -/
def init : LinkedList := { first := none, last := none, heap := fun _ => none, blocks := 0 }

/-! ### The heap -/

section Heap

variable (l : LinkedList)

/-- The entry a pointer leads to. -/
def load (p : Option Addr) : Option LinkedEntry := p.bind l.heap

/-- An assignment to a field of the entry a pointer leads to. -/
def store (p : Option Addr) (assign : LinkedEntry → LinkedEntry) : Option LinkedList := do
  let a ← p
  let entry ← l.heap a
  return { l with heap := Function.update l.heap a (some (assign entry)) }

/-- A block from `malloc` with its fields set. -/
def alloc (a : Addr) (entry : LinkedEntry) : LinkedList :=
  { l with heap := Function.update l.heap a (some entry), blocks := l.blocks + 1 }

def free (a : Addr) : LinkedList :=
  { l with heap := Function.update l.heap a none, blocks := l.blocks - 1 }

end Heap

/-! ### Changing a list -/

/-- `add_entry_to_list`. What `malloc` returns is not tested, so the first assignment
    follows it wherever it leads. -/
def addEntryToList (malloc : Option Addr) (data : U32) (l : LinkedList) : Option LinkedList := do
  let newEntry ← malloc
  let l := l.alloc newEntry { data := data, next := none, prev := none }
  if l.first = none then
    return { l with first := newEntry, last := newEntry }
  else
    let l ← l.store l.last fun entry => { entry with next := newEntry }
    let l ← l.store newEntry fun entry => { entry with prev := l.last }
    return { l with last := newEntry }

/-- The loop of `remove_entry_from_list`. -/
def removeLoop (data : U32) : Nat → Option Addr → LinkedList → Option LinkedList
  | 0, _, _ => none
  | _ + 1, none, l => some l
  | rounds + 1, some testEntry, l => do
    let entry ← l.load testEntry
    if entry.data = data then
      if entry.next = none then
        let l := { l with last := entry.prev }
        let l ← l.store l.last fun entry => { entry with next := none }
        return l.free testEntry
      else
        let l ← l.store entry.prev fun before => { before with next := entry.next }
        -- Both pointers of the entry are read again after the first assignment.
        let entry ← l.load testEntry
        let l ← l.store entry.next fun after => { after with prev := entry.prev }
        return l.free testEntry
    else
      removeLoop data rounds entry.next l

/-- `remove_entry_from_list`. The first entry is read without a test for `NULL`. -/
def removeEntryFromList (data : U32) (l : LinkedList) : Option LinkedList := do
  let testEntry ← l.first
  let entry ← l.load testEntry
  if entry.data = data then
    if entry.next = none then
      return { l.free testEntry with first := none, last := none }
    else
      let l := { l with first := entry.next }
      let l ← l.store l.first fun first => { first with prev := none }
      return l.free testEntry
  else
    removeLoop data (l.blocks + 1) entry.next l

/-! ### Reading a list -/

section Reading

variable (l : LinkedList)

/-- The first loop of `get_all_entries`. -/
def countEntries : Nat → Option Addr → U32 → Option U32
  | 0, _, _ => none
  | _ + 1, none, size => some size
  | rounds + 1, some curEntry, size => do
    let entry ← l.load curEntry
    countEntries rounds entry.next (size + 1)

/-- The second loop. The array has only so many words, and writing to others is
    undefined. -/
def copyEntries : Nat → Option Addr → U32 → List U32 → Option (List U32)
  | 0, _, _, _ => none
  | _ + 1, none, _, retArray => some retArray
  | rounds + 1, some curEntry, index, retArray => do
    let entry ← l.load curEntry
    if index.toNat < retArray.length then
      copyEntries rounds entry.next (index + 1) (retArray.set index.toNat entry.data)
    else none

/-- The words of a block of that many, whatever was in them; `NULL` has none. -/
def words (malloc : Option (Nat → U32)) (size : U32) : List U32 :=
  match malloc with
  | none => []
  | some contents => (List.range size.toNat).map contents

/-- `get_all_entries`: the size and the array, whose block `malloc` hands out. -/
def getAllEntries (malloc : Option (Nat → U32)) : Option (U32 × List U32) := do
  let size ← l.countEntries (l.blocks + 1) l.first 0
  let retArray ← l.copyEntries (l.blocks + 1) l.first 0 (words malloc size)
  return (size, retArray)

/-- The loop of `is_in_list`. -/
def isInLoop (data : U32) : Nat → Option Addr → Option Byte
  | 0, _ => none
  | _ + 1, none => some 0
  | rounds + 1, some currentEntry => do
    let entry ← l.load currentEntry
    if entry.data = data then return 1
    else isInLoop data rounds entry.next

/-- `is_in_list`. -/
def isInList (data : U32) : Option Byte := l.isInLoop data (l.blocks + 1) l.first

end Reading

/-- What the handlers do to `next_hop_for`: they add a value that is not in the list. -/
def addUnlessInList (malloc : Option Addr) (data : U32) (l : LinkedList) : Option LinkedList := do
  let isIn ← l.isInList data
  if isIn = 0 then l.addEntryToList malloc data else return l

/-! ### Freeing a list -/

/-- The loop of `free_linked_list`. -/
def freeLoop : Nat → Option Addr → LinkedList → Option LinkedList
  | 0, _, _ => none
  | _ + 1, none, l => some l
  | rounds + 1, some entry, l => do
    -- What comes next is read before the entry is freed.
    let { next, .. } ← l.load entry
    freeLoop rounds next (l.free entry)

/-- `free_linked_list`: the blocks that are left, and whether the `linked_list` itself has
    been freed. One without entries is left behind. -/
def freeLinkedList (l : LinkedList) : Option (LinkedList × Bool) :=
  if l.first = none then some (l, false)
  else do
    let l ← l.freeLoop (l.blocks + 1) l.first
    return (l, true)

/-! ### The heap, simplified -/

section Heap

variable (l : LinkedList) (a : Addr)

@[simp] theorem load_some : l.load (some a) = l.heap a := rfl

@[simp] theorem alloc_heap (entry : LinkedEntry) :
    (l.alloc a entry).heap = Function.update l.heap a (some entry) := rfl

@[simp] theorem free_heap : (l.free a).heap = Function.update l.heap a none := rfl

theorem store_some (entry : LinkedEntry) (assign : LinkedEntry → LinkedEntry)
    (h : l.heap a = some entry) :
    l.store (some a) assign =
      some { l with heap := Function.update l.heap a (some (assign entry)) } := by
  simp only [store, Option.bind_eq_bind, Option.bind_some, h]
  rfl

end Heap

end LinkedList

end OpenManet
