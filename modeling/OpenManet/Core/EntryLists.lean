import OpenManet.Core.LinkedList
import OpenManet.Core.Operations
import OpenManet.Library.Shadow

/-!
# The Lists of the Entries in Memory

An entry has two linked lists, which come with it and go with it. In the table of the
machine they are sequences. Here they are the lists of `linked_list.c`, and every
operation does to them what the source does: `create_or_get_routing_entry` makes two
empty ones, the handlers add to them, and `free_entry` frees them.

The lists of an entry have their blocks apart, since `malloc` never hands out a block
that is in use. Which block it hands out may depend on everything that has happened.

## Main definitions

* `EntryLists`: The lists of an entry.
* `ListMemory`: The lists of all entries, and what has been left behind.
* `Op.onLists`: What an operation does to them.
-/

namespace OpenManet

/-- The lists of an entry. -/
structure EntryLists where
  precursorList : LinkedList
  nextHopFor : LinkedList

/-- The lists of a new entry. -/
def EntryLists.init : EntryLists := { precursorList := .init, nextHopFor := .init }

/-- The lists of the entries in the table, and what is left of those of entries that have
    been freed. -/
structure ListMemory where
  lists : Fin 256 → Option EntryLists
  /-- How many `linked_list`s have not been freed with their entry. -/
  listsLeft : Nat
  /-- How many `linked_entry`s have not. -/
  entriesLeft : Nat

/-- What `malloc` hands out for an entry of a list. -/
abbrev Malloc := Op → Node → LinkedList → Option Addr

namespace ListMemory

/-- Before there is any entry. -/
def start : ListMemory := { lists := fun _ => none, listsLeft := 0, entriesLeft := 0 }

def set (i : Fin 256) (l : Option EntryLists) (m : ListMemory) : ListMemory :=
  { m with lists := fun j => if j = i then l else m.lists j }

/-- Does something to the lists of the entry in a slot, if there is one. -/
def modify (i : Fin 256) (f : EntryLists → Option EntryLists) (m : ListMemory) :
    Option ListMemory :=
  match m.lists i with
  | none => some m
  | some l => do return m.set i (← f l)

/-- What `free_entry` does to the lists of the entry in a slot. -/
def freeEntry (i : Fin 256) (m : ListMemory) : Option ListMemory :=
  match m.lists i with
  | none => some m
  | some l => do
    let (precursors, freed) ← l.precursorList.freeLinkedList
    let (hops, freed') ← l.nextHopFor.freeLinkedList
    return { m.set i none with
      listsLeft := m.listsLeft + (if freed then 0 else 1) + (if freed' then 0 else 1)
      entriesLeft := m.entriesLeft + precursors.blocks + hops.blocks }

end ListMemory

/-- What an operation does to the lists in memory. It has no result if it follows `NULL` or
    a pointer to what has been freed. -/
def Op.onLists (malloc : Malloc) (o : Op) (n : Node) (m : ListMemory) : Option ListMemory :=
  match o with
  | .create _ destIp _ _ _ _ _ =>
    match m.lists (slotOf destIp) with
    | none => some (m.set (slotOf destIp) (some .init))
    | some _ => some m
  | .previousHop _ senderIp listed _ =>
    m.modify (slotOf senderIp) fun l => do
      return { l with
        nextHopFor := ← l.nextHopFor.addUnlessInList (malloc o n l.nextHopFor) listed }
  | .write ip (.precursor precursor) =>
    m.modify (slotOf ip) fun l => do
      return { l with
        precursorList := ← l.precursorList.addEntryToList (malloc o n l.precursorList) precursor }
  | .removeEntry ip => m.freeEntry (slotOf ip)
  | _ => some m

/-- The empty lists of the entry an operation removes. -/
def Op.emptyLists (o : Op) (n : Node) : Nat :=
  match o with
  | .removeEntry ip =>
    match n.getRoutingEntry ip with
    | none => 0
    | some e => (if e.precursorList = [] then 1 else 0) + (if e.nextHopFor = [] then 1 else 0)
  | _ => 0

end OpenManet
