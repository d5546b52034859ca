import OpenManet.Core.Messages

/-!
# The Routing Table

`data_structure.c` and the table operations of `routing_table.c`. The container
is an array of 256 pointers indexed by the top octet of an address, and nothing
compares the address of the entry it finds with the one it looked for. Two
addresses with one top octet therefore share an entry.

What holds of every table the program can build is that an entry sits in the
slot of its own address: `addRoutingEntry` puts it there and no statement writes
`destIp` afterwards. `RoutingTable` carries that fact as a field. A handler's
writes through an entry pointer go through `modify`, which keeps the address.

A linked list is the list of its values. A thread id is whether it is non-zero,
except for the search thread's, which `pthread_cancel` has to find.

## Main definitions

* `RoutingEntry`: One entry of the table.
* `slotOf`: The array index of an address.
* `RoutingTable`: The array, with each entry in its own slot.
* `RoutingTable.modify`: Writing through the pointer to an entry.

## Theorems

* `addRoutingEntry_slots`, `removeRoutingEntry_slots`, `modify_slots`: The slots
  after each operation.
-/

namespace OpenManet

inductive RouteStatus where
  | routeInvalid
  | routeValid
  deriving DecidableEq, Repr

inductive SeqValid where
  | seqInvalid
  | seqValid
  deriving DecidableEq, Repr

inductive RreqStatus where
  | searchFailed
  | searchFound
  | searchNone
  | searchSearching
  deriving DecidableEq, Repr

/-- `routing_entry`, less its mutex, with one field more: `rreqIdSet` says whether
    `rreqId` has been assigned since the entry was allocated. Nothing reads it. -/
structure RoutingEntry where
  destIp : U32
  destSeq : U32
  seqValid : SeqValid
  nextHop : U32
  hopCount : U32
  status : RouteStatus
  timeOut : Timespec
  precursorList : List U32
  nextHopFor : List U32
  /-- A timer thread is running for the entry. -/
  expirationThread : Bool
  rreqId : U32
  rreqIdSet : Bool
  /-- A thread is waiting to clear `rreqId`. -/
  rreqIdThread : Bool
  rreqSearch : RreqStatus
  /-- The id of the search thread, zero when there is none. -/
  rreqMessageSender : Nat
  activeRoute : U32
  deriving DecidableEq, Repr

/-- `data_header`: 256 pointers, NULL where there is no entry. -/
abbrev DataHeader (α : Type) := Fin 256 → Option α

/-- The index computed from the sort variable, its top octet. -/
def slotOf (sortVariable : U32) : Fin 256 := Fin.ofNat 256 (sortVariable >>> 24).toNat

section DataStructure

variable {α : Type}

def createDataHeader : DataHeader α := fun _ => none

def addEntryToDataStructure (container : DataHeader α) (entry : α) (sortVariable : U32) :
    DataHeader α :=
  fun i => if i = slotOf sortVariable then some entry else container i

def removeEntryFromDataStructure (container : DataHeader α) (searchVariable : U32) :
    DataHeader α :=
  fun i => if i = slotOf searchVariable then none else container i

def findEntryInDataStructure (container : DataHeader α) (searchVariable : U32) : Option α :=
  container (slotOf searchVariable)

/-- A condition on what a lookup finds can be checked by looking it up. -/
instance decidableFound (found : Option α) (P : α → Prop) [DecidablePred P] :
    Decidable (∀ e, found = some e → P e) :=
  match found with
  | none => isTrue nofun
  | some a => decidable_of_iff (P a) ⟨fun h _ he => Option.some.inj he ▸ h, fun h => h a rfl⟩

end DataStructure

/-- The table: every entry sits in the slot of its own address. -/
structure RoutingTable where
  slots : DataHeader RoutingEntry
  keyed : ∀ i e, slots i = some e → slotOf e.destIp = i

namespace RoutingTable

def createRoutingTable : RoutingTable where
  slots := createDataHeader
  keyed := by
    intro i e h
    simp only [createDataHeader, reduceCtorEq] at h

def getRoutingEntry (table : RoutingTable) (destIp : U32) : Option RoutingEntry :=
  findEntryInDataStructure table.slots destIp

def addRoutingEntry (table : RoutingTable) (entry : RoutingEntry) : RoutingTable where
  slots := addEntryToDataStructure table.slots entry entry.destIp
  keyed := by
    intro i e h
    simp only [addEntryToDataStructure] at h
    by_cases hi : i = slotOf entry.destIp
    · rw [if_pos hi, Option.some.injEq] at h
      rw [← h, hi]
    · rw [if_neg hi] at h
      exact table.keyed i e h

def removeRoutingEntry (table : RoutingTable) (destIp : U32) : RoutingTable where
  slots := removeEntryFromDataStructure table.slots destIp
  keyed := by
    intro i e h
    simp only [removeEntryFromDataStructure] at h
    by_cases hi : i = slotOf destIp
    · rw [if_pos hi] at h
      simp only [reduceCtorEq] at h
    · rw [if_neg hi] at h
      exact table.keyed i e h

/-- Writes through the pointer to the entry `getRoutingEntry` finds for `ip`, if
    it finds one. The address is written only when an entry is created. -/
def modify (table : RoutingTable) (ip : U32) (f : RoutingEntry → RoutingEntry) : RoutingTable where
  slots := fun i =>
    if i = slotOf ip then (table.slots i).map (fun e => { f e with destIp := e.destIp })
    else table.slots i
  keyed := by
    intro i e h
    by_cases hi : i = slotOf ip
    · rw [if_pos hi] at h
      rcases Option.map_eq_some_iff.mp h with ⟨e₀, he₀, rfl⟩
      exact table.keyed i e₀ he₀
    · rw [if_neg hi] at h
      exact table.keyed i e h

@[ext] theorem ext {t t' : RoutingTable} (h : ∀ i, t.slots i = t'.slots i) : t = t' := by
  cases t with
  | mk s k =>
      cases t' with
      | mk s' k' =>
          have hs : s = s' := funext h
          subst hs
          rfl

@[simp] theorem createRoutingTable_slots (i : Fin 256) : createRoutingTable.slots i = none := rfl

@[simp] theorem addRoutingEntry_slots (table : RoutingTable) (entry : RoutingEntry) (i : Fin 256) :
    (table.addRoutingEntry entry).slots i =
      if i = slotOf entry.destIp then some entry else table.slots i := rfl

@[simp] theorem removeRoutingEntry_slots (table : RoutingTable) (ip : U32) (i : Fin 256) :
    (table.removeRoutingEntry ip).slots i = if i = slotOf ip then none else table.slots i := rfl

@[simp] theorem modify_slots (table : RoutingTable) (ip : U32) (f : RoutingEntry → RoutingEntry)
    (i : Fin 256) :
    (table.modify ip f).slots i =
      if i = slotOf ip then (table.slots i).map (fun e => { f e with destIp := e.destIp })
      else table.slots i := rfl

theorem getRoutingEntry_eq (table : RoutingTable) (ip : U32) :
    table.getRoutingEntry ip = table.slots (slotOf ip) := rfl

end RoutingTable

end OpenManet
