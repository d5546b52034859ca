import OpenManet.Core.Threads
import OpenManet.Theory.Effect

/-!
# Handlers Run Alone

The handlers of the machine work on a table of entries, each section in one operation.
The programs of the threads work on blocks of memory through pointers, one access after
the other, and keep ids where the machine keeps marks. This module compares the two. A
program that runs alone from its start to its next loop or its end leaves the memory in
a state that shows what the handler leaves in the table, with the same numbers, the same
messages and the same calls into the kernel, in the same order.

An entry shown by a block has a mark for each timer whose id is not zero. The id of its
search thread may be another one, since the machine numbers searches and the system all
threads, but it is zero for both or for none.

The pointers of the table are all different, so that a write through one of them is a
write to one entry, and those not handed out yet lead to none.

## Main definitions

* `EntryBlock.Shows`: A block of memory and an entry of the machine.
* `Shared.Shows`: The memory and a node.
* `alone`: The operations of a thread that runs alone.
* `Agrees`: A program and a handler end alike.

## Theorems

* `Shared.Shows.create`, `Shared.Shows.update`: Making an entry, and writing to one.
* `previousHopSection_agrees`, `publishFound_agrees`: The sections handlers begin with.
* `recvRreq_agrees`, `recvRrep_agrees`: The handlers of requests and replies.
-/

namespace OpenManet

namespace Threads

/-- The entry of a block, as the machine keeps it under a number for its search. -/
def EntryBlock.shown (b : EntryBlock) (sender : Nat) : RoutingEntry :=
  { b.entry with
    expirationThread := decide (b.thread .expiration ≠ 0)
    rreqIdThread := decide (b.thread .rreqId ≠ 0)
    rreqMessageSender := sender }

/-- The machine numbers a search exactly if there is a thread for it. -/
def EntryBlock.Numbers (b : EntryBlock) (sender : Nat) : Prop := sender = 0 ↔ b.thread .search = 0

def EntryBlock.Shows (b : EntryBlock) (e : RoutingEntry) : Prop :=
  ∃ sender, b.Numbers sender ∧ e = b.shown sender

/-- What is not in the table. -/
structure SameGlobals (s : Shared) (n : Node) : Prop where
  ipAddress : n.ipAddress = s.ipAddress
  sequenceNum : n.sequenceNum = s.number .sequenceNum
  rreqId : n.rreqId = s.number .rreqId
  activeRoutes : n.activeRoutes = s.activeRoutes
  log : n.log = s.log
  started : 0 < n.nextThread

theorem SameGlobals.update {s : Shared} {n : Node} (g : SameGlobals s n) {ip : U32}
    {f : RoutingEntry → RoutingEntry} : SameGlobals s (n.updateEntry ip f) :=
  ⟨g.ipAddress, g.sequenceNum, g.rreqId, g.activeRoutes, g.log, g.started⟩

/-- The memory shows the node: what the pointers of the table lead to are its entries. -/
structure Shared.Shows (s : Shared) (n : Node) : Prop where
  globals : SameGlobals s n
  slots : ∀ i, Option.Rel (fun p e => (s.blocks p).Shows e) (s.routes i) (n.routes.slots i)
  used : ∀ i p, s.routes i = some p → p < s.nextEntry
  distinct : ∀ i j p, s.routes i = some p → s.routes j = some p → i = j

theorem boot_shows (ip bcast : U32) (hello : Nat → Byte) :
    (boot ip).Shows (Node.boot ip bcast hello) where
  globals := ⟨rfl, rfl, rfl, rfl, rfl, Nat.one_pos⟩
  slots := fun _ => .none
  used := fun _ _ h => absurd h nofun
  distinct := fun _ _ _ h => absurd h nofun

/-! ### Blocks -/

section Blocks

variable (s : Shared) (p q : Nat) (b : EntryBlock)

@[simp] theorem setBlock_same : (s.setBlock p b).blocks p = b := if_pos rfl

theorem setBlock_setBlock (b' : EntryBlock) :
    (s.setBlock p b).setBlock p b' = s.setBlock p b' := by
  unfold Shared.setBlock
  congr 1
  funext q
  simp only []
  split <;> rfl

theorem setBlock_other (h : q ≠ p) : (s.setBlock p b).blocks q = s.blocks q := if_neg h

end Blocks

/-! ### Looking up, making and writing an entry -/

theorem optionRel_imp {α β : Type} {r r' : α → β → Prop} {a : Option α} {b : Option β}
    (h : Option.Rel r a b) (himp : ∀ x y, a = some x → r x y → r' x y) : Option.Rel r' a b := by
  cases h with
  | some hr => exact .some (himp _ _ rfl hr)
  | none => exact .none

section Table

variable {s s' : Shared} {n n' : Node} {ip : U32} {p : Nat}

theorem Shared.Shows.found (h : s.Shows n) (hp : s.find ip = some p) :
    ∃ sender, (s.blocks p).Numbers sender ∧
      n.getRoutingEntry ip = some ((s.blocks p).shown sender) := by
  have hslot := h.slots (slotOf ip)
  rw [show s.routes (slotOf ip) = some p from hp] at hslot
  rw [Node.getRoutingEntry_eq]
  cases hentry : n.routes.slots (slotOf ip) with
  | none =>
      rw [hentry] at hslot
      cases hslot
  | some e =>
      rw [hentry] at hslot
      cases hslot with
      | some hshows =>
          rcases hshows with ⟨sender, hnumbers, rfl⟩
          exact ⟨sender, hnumbers, rfl⟩

theorem Shared.Shows.missing (h : s.Shows n) (hp : s.find ip = none) :
    n.getRoutingEntry ip = none := by
  have hslot := h.slots (slotOf ip)
  rw [show s.routes (slotOf ip) = none from hp] at hslot
  rw [Node.getRoutingEntry_eq]
  cases hentry : n.routes.slots (slotOf ip) with
  | none => rfl
  | some e =>
      rw [hentry] at hslot
      cases hslot

theorem Shared.Shows.isNew (h : s.Shows n) (ip : U32) : n.isNew ip = s.isNew ip := by
  unfold Node.isNew Shared.isNew
  cases hp : s.find ip with
  | none => rw [h.missing hp]; rfl
  | some p =>
      rcases h.found hp with ⟨sender, -, he⟩
      rw [he]
      rfl

/-- Two slots with different pointers. -/
theorem Shared.Shows.apart (h : s.Shows n) {i j : Fin 256} {q : Nat} (hi : s.routes i = some p)
    (hj : s.routes j = some q) (hij : i ≠ j) : q ≠ p :=
  fun heq => hij (h.distinct i j p hi (heq ▸ hj))

/-- `create_or_get_routing_entry` on both sides. -/
theorem Shared.Shows.create (h : s.Shows n) (env : Env) (id : Nat) (destIp destSeq : U32)
    (v : SeqValid) (hop count time : U32) :
    ((ThreadOp.create destIp destSeq v hop count time).apply env id s).Shows
        ((Op.create env destIp destSeq v hop count time).apply n) ∧
      ∃ p, ((ThreadOp.create destIp destSeq v hop count time).apply env id s).find destIp =
        some p := by
  simp only [ThreadOp.apply, Op.apply, Node.createOrGetRoutingEntry]
  cases hp : s.find destIp with
  | some p =>
      rcases h.found hp with ⟨sender, -, he⟩
      rw [he]
      exact ⟨h, p, hp⟩
  | none =>
      rw [h.missing hp]
      -- The new block lies where no pointer of the table leads.
      have hunused : ∀ i q, s.routes i = some q → q ≠ s.nextEntry :=
        fun i q hq => Nat.ne_of_lt (h.used i q hq)
      refine ⟨⟨⟨h.globals.ipAddress, h.globals.sequenceNum, h.globals.rreqId,
        h.globals.activeRoutes, h.globals.log, h.globals.started⟩, fun i => ?_, fun i q hq => ?_,
        fun i j q hi hj => ?_⟩, s.nextEntry, if_pos rfl⟩
      · show Option.Rel _ (if i = slotOf destIp then some s.nextEntry else s.routes i)
          (if i = slotOf destIp then _ else n.routes.slots i)
        by_cases hi : i = slotOf destIp
        · rw [if_pos hi, if_pos hi]
          refine .some ⟨0, ?_, ?_⟩
          · simp only [setBlock_same, EntryBlock.Numbers]
          · simp only [setBlock_same]
            rfl
        · rw [if_neg hi, if_neg hi]
          refine optionRel_imp (h.slots i) fun q e hq hshows => ?_
          rw [setBlock_other _ _ _ _ (hunused i q hq)]
          exact hshows
      · replace hq : (if i = slotOf destIp then some s.nextEntry else s.routes i) = some q := hq
        show q < s.nextEntry + 1
        by_cases hi : i = slotOf destIp
        · rw [if_pos hi, Option.some.injEq] at hq
          omega
        · rw [if_neg hi] at hq
          exact Nat.lt_succ_of_lt (h.used i q hq)
      · replace hi : (if i = slotOf destIp then some s.nextEntry else s.routes i) = some q := hi
        replace hj : (if j = slotOf destIp then some s.nextEntry else s.routes j) = some q := hj
        by_cases hi' : i = slotOf destIp
        · by_cases hj' : j = slotOf destIp
          · rw [hi', hj']
          · rw [if_pos hi', Option.some.injEq] at hi
            rw [if_neg hj'] at hj
            exact absurd hi.symm (hunused j q hj)
        · by_cases hj' : j = slotOf destIp
          · rw [if_pos hj', Option.some.injEq] at hj
            rw [if_neg hi'] at hi
            exact absurd hj.symm (hunused i q hi)
          · rw [if_neg hi'] at hi
            rw [if_neg hj'] at hj
            exact h.distinct i j q hi hj

/-- What is written through a pointer of the table, in however many steps, is written to
    the entry of the address. -/
theorem Shared.Shows.update (h : s.Shows n) (hp : s.find ip = some p)
    (f : RoutingEntry → RoutingEntry) (hf : ∀ e, (f e).destIp = e.destIp)
    (hblock : ∀ sender, (s.blocks p).Numbers sender →
      n.getRoutingEntry ip = some ((s.blocks p).shown sender) →
      (s'.blocks p).Shows (f ((s.blocks p).shown sender)))
    (hothers : ∀ q, q ≠ p → s'.blocks q = s.blocks q)
    (htable : s'.routes = s.routes) (hnext : s'.nextEntry = s.nextEntry)
    (hroutes : n'.routes = (n.updateEntry ip f).routes) (hglobals : SameGlobals s' n') :
    s'.Shows n' := by
  refine ⟨hglobals, fun i => ?_, fun i q hq => ?_, fun i j q hi hj => ?_⟩
  · rw [htable, hroutes, Node.updateEntry_slots_of_keep ip f hf]
    by_cases hi : i = slotOf ip
    · rcases h.found hp with ⟨sender, hnumbers, he⟩
      rw [if_pos hi, hi, show s.routes (slotOf ip) = some p from hp,
        show n.routes.slots (slotOf ip) = _ from he]
      exact .some (hblock sender hnumbers he)
    · rw [if_neg hi]
      refine optionRel_imp (h.slots i) fun q e hq hshows => ?_
      rw [hothers q (h.apart hp hq (fun heq => hi heq.symm))]
      exact hshows
  · rw [htable] at hq
    rw [hnext]
    exact h.used i q hq
  · rw [htable] at hi hj
    exact h.distinct i j q hi hj

/-- What touches no entry. -/
theorem Shared.Shows.keep (h : s.Shows n) (hblocks : s'.blocks = s.blocks)
    (htable : s'.routes = s.routes) (hnext : s'.nextEntry = s.nextEntry)
    (hroutes : n'.routes = n.routes) (hglobals : SameGlobals s' n') : s'.Shows n' := by
  refine ⟨hglobals, fun i => ?_, fun i q hq => ?_, fun i j q hi hj => ?_⟩
  · rw [htable, hroutes, hblocks]
    exact h.slots i
  · rw [htable] at hq
    rw [hnext]
    exact h.used i q hq
  · rw [htable] at hi hj
    exact h.distinct i j q hi hj

end Table

/-! ### Running alone -/

/-- The operations of a thread that runs alone in these surroundings, where the threads it
    starts get these ids. -/
def alone (env : Env) (ids : ThreadOp → Shared → Nat) (o : ThreadOp) (s : Shared) : Shared :=
  o.apply env (ids o s) s

section Alone

variable (env : Env) (ids : ThreadOp → Shared → Nat) (s : Shared) (p : Nat)

theorem exec_cancelThread (kind : Service) (after next : Program) :
    (cancelThread kind p after next).exec (alone env ids) s =
      if s.threadOf kind p ≠ 0 then after.exec (alone env ids) s
      else next.exec (alone env ids) s := by
  simp only [cancelThread, Prog.exec]
  split <;> rfl

/-- A timer is started anew, and the entry keeps its id. -/
theorem exec_setExpirationTimer (hids : ∀ o s, ids o s ≠ 0) (ms : Env → RoutingEntry → U32)
    (next : Program) : ∃ id, id ≠ 0 ∧
      (setExpirationTimer p ms next).exec (alone env ids) s =
        next.exec (alone env ids) (s.setBlock p
          { entry := moveDeadline ms env (s.entry p)
            thread := fun kind => if kind = .expiration then id else s.threadOf kind p }) := by
  simp only [setExpirationTimer, exec_cancelThread, Prog.exec]
  by_cases hrun : s.threadOf .expiration p ≠ 0
  · refine ⟨ids (.spawn .expiration p)
      (alone env ids (.write p (moveDeadline ms)) (s.setThread .expiration p 0)), hids _ _, ?_⟩
    rw [if_pos hrun]
    congr 1
    -- The id that is cleared on the way is written over.
    simp only [alone, ThreadOp.apply, Shared.setThread, Shared.threadOf, Shared.entry,
      setBlock_setBlock, setBlock_same]
    congr 2
    funext kind
    split <;> rfl
  · refine ⟨ids (.spawn .expiration p) (alone env ids (.write p (moveDeadline ms)) s),
      hids _ _, ?_⟩
    rw [if_neg hrun]
    congr 1
    simp only [alone, ThreadOp.apply, Shared.setThread, Shared.threadOf, setBlock_setBlock,
      setBlock_same]

theorem exec_startRreqTimer (hids : ∀ o s, ids o s ≠ 0) (next : Program) : ∃ id, id ≠ 0 ∧
    (startRreqTimer p next).exec (alone env ids) s =
      next.exec (alone env ids) (s.setThread .rreqId p id) := by
  refine ⟨ids (.spawn .rreqId p) s, hids _ _, ?_⟩
  simp only [startRreqTimer, exec_cancelThread, ite_self, Prog.exec]
  rfl

theorem exec_activate (next : Program) :
    (activate p next).exec (alone env ids) s =
      next.exec (alone env ids)
        (if (s.entry p).activeRoute = 0 then
          { s.setBlock p { s.blocks p with entry := { s.entry p with activeRoute := 1 } } with
            activeRoutes := s.activeRoutes + 1 }
        else s) := by
  simp only [activate, Prog.exec]
  split
  · rfl
  · rfl

end Alone

section Agreement

/-- The program and the handler, each run alone to its end, leave memory and node alike,
    and what they end with fits together. -/
def Agrees (env : Env) (ids : ThreadOp → Shared → Nat) (ends : Option Routine → Outcome → Prop)
    (p : Program) (h : Handler) (s : Shared) (n : Node) : Prop :=
  (p.exec (alone env ids) s).1.Shows (h.exec Op.apply n).1 ∧
    ends (p.exec (alone env ids) s).2 (h.exec Op.apply n).2

/-- Both return. -/
def Returned (r : Option Routine) (o : Outcome) : Prop := r = none ∧ ∃ v, o = .returned v

variable {env : Env} {ids : ThreadOp → Shared → Nat} {ends : Option Routine → Outcome → Prop}
  {s : Shared} {n : Node} {next : Program} {next' : Handler}

theorem agrees_accept (h : s.Shows n) : Agrees env ids Returned done acceptPacket s n :=
  ⟨h, rfl, _, rfl⟩

/-! The state is looked at, and mutexes are granted, on either side. -/

theorem agrees_read {look : Shared → Program} {h : Handler}
    (hnext : Agrees env ids ends (look s) h s n) : Agrees env ids ends (.read look) h s n := hnext

theorem agrees_readNode {p : Program} {look : Node → Handler}
    (hnext : Agrees env ids ends p (look n) s n) : Agrees env ids ends p (.read look) s n := hnext

theorem agrees_lock {k : Mutex} {p : Program} {h : Handler}
    (hnext : Agrees env ids ends p h s n) : Agrees env ids ends (.lock k p) h s n := hnext

theorem agrees_lockSlot {k : Fin 256} {p : Program} {h : Handler}
    (hnext : Agrees env ids ends p h s n) : Agrees env ids ends p (.lock k h) s n := hnext

theorem agrees_unlock {k : Mutex} {p : Program} {h : Handler}
    (hnext : Agrees env ids ends p h s n) : Agrees env ids ends (.unlock k p) h s n := hnext

theorem agrees_unlockSlot {k : Fin 256} {p : Program} {h : Handler}
    (hnext : Agrees env ids ends p h s n) : Agrees env ids ends p (.unlock k h) s n := hnext

/-- `create_or_get_routing_entry` and the pointer it returns. -/
theorem createEntry_agrees (h : s.Shows n) (ip q : U32) (v : SeqValid) (hop count time : U32)
    {next : Nat → Bool → Program} {next' : Node → Node → Handler}
    (hnext : ∀ p s' n', s'.Shows n' → s'.find ip = some p →
      n' = (Op.create env ip q v hop count time).apply n →
      Agrees env ids ends (next p (n.isNew ip)) (next' n n') s' n') :
    Agrees env ids ends (createEntry ip q v hop count time next)
      (.op (.create env ip q v hop count time) next') s n := by
  rcases h.create env (ids (.create ip q v hop count time) s) ip q v hop count time with
    ⟨hcreated, p, hp⟩
  have hagrees := hnext p _ _ hcreated hp rfl
  unfold Agrees at hagrees ⊢
  simp only [createEntry, Prog.exec]
  rw [show alone env ids (.create ip q v hop count time) s =
    (ThreadOp.create ip q v hop count time).apply env _ s from rfl, hp, ← h.isNew ip]
  exact hagrees

/-- A timer is started anew, and the entry keeps its id. -/
theorem setExpirationTimer_agrees (hids : ∀ o s, ids o s ≠ 0) (p : Nat)
    (ms : Env → RoutingEntry → U32) {h : Handler}
    (hnext : ∀ id, id ≠ 0 → Agrees env ids ends next h (s.setBlock p
      { entry := moveDeadline ms env (s.entry p)
        thread := fun kind => if kind = .expiration then id else s.threadOf kind p }) n) :
    Agrees env ids ends (setExpirationTimer p ms next) h s n := by
  rcases exec_setExpirationTimer env ids s p hids ms next with ⟨id, hid, hexec⟩
  unfold Agrees
  rw [hexec]
  exact hnext id hid

theorem startRreqTimer_agrees (hids : ∀ o s, ids o s ≠ 0) (p : Nat) {h : Handler}
    (hnext : ∀ id, id ≠ 0 → Agrees env ids ends next h (s.setThread .rreqId p id) n) :
    Agrees env ids ends (startRreqTimer p next) h s n := by
  rcases exec_startRreqTimer env ids s p hids next with ⟨id, hid, hexec⟩
  unfold Agrees
  rw [hexec]
  exact hnext id hid

/-- A call is recorded. -/
def Shared.called (c : ApiCall) (s : Shared) : Shared := { s with log := c :: s.log }

theorem Shared.Shows.call (h : s.Shows n) (c : ApiCall) : (s.called c).Shows (n.call c) :=
  h.keep rfl rfl rfl rfl ⟨h.globals.ipAddress, h.globals.sequenceNum, h.globals.rreqId,
    h.globals.activeRoutes, congrArg (c :: ·) h.globals.log, h.globals.started⟩

theorem Shared.Shows.nextHopOf (h : s.Shows n) {ip : U32} {p : Nat} (hp : s.find ip = some p) :
    n.nextHopOf ip = (s.entry p).nextHop := by
  rcases h.found hp with ⟨sender, -, he⟩
  unfold Node.nextHopOf
  rw [he]
  rfl

/-- A neighbour is listed under an entry. -/
def Shared.listed (p : Nat) (ip : U32) (s : Shared) : Shared :=
  s.setBlock p { s.blocks p with
    entry := { s.entry p with precursorList := (s.entry p).precursorList ++ [ip] } }

theorem Shared.Shows.listed (h : s.Shows n) {dest : U32} {p : Nat} (hp : s.find dest = some p)
    (ip : U32) : (s.listed p ip).Shows ((Op.write dest (.precursor ip)).apply n) := by
  refine h.update hp (Write.precursor ip).apply (fun _ => rfl) (fun sender hnumbers _ => ?_)
    (fun q hq => setBlock_other s p q _ hq) rfl rfl rfl ?_
  · simp only [Shared.listed, setBlock_same]
    exact ⟨sender, hnumbers, rfl⟩
  · have g := h.globals
    exact ⟨g.ipAddress, g.sequenceNum, g.rreqId, g.activeRoutes, g.log, g.started⟩

theorem listed_nextHop (p q : Nat) (ip : U32) :
    ((s.listed p ip).entry q).nextHop = (s.entry q).nextHop := by
  unfold Shared.listed Shared.entry
  by_cases hq : q = p
  · rw [hq, setBlock_same]
  · rw [setBlock_other s p q _ hq]

/-- A neighbour is listed on both sides. -/
theorem addPrecursor_agrees (h : s.Shows n) {dest : U32} {p : Nat} (hp : s.find dest = some p)
    (ip : U32) {next' : Node → Node → Handler}
    (hnext : (s.listed p ip).Shows ((Op.write dest (.precursor ip)).apply n) →
      Agrees env ids ends next (next' n ((Op.write dest (.precursor ip)).apply n))
        (s.listed p ip) ((Op.write dest (.precursor ip)).apply n)) :
    Agrees env ids ends (addPrecursor p ip next) (.op (.write dest (.precursor ip)) next') s n :=
  hnext (h.listed hp ip)

/-- A packet is sent on both sides. -/
theorem agrees_call (h : s.Shows n) (c : Env → ApiCall) (o : Op) {next' : Node → Node → Handler}
    (ho : o.apply n = n.call (c env))
    (hnext : (s.called (c env)).Shows (o.apply n) →
      Agrees env ids ends next (next' n (o.apply n)) (s.called (c env)) (o.apply n)) :
    Agrees env ids ends (.op (.call c) fun _ _ => next) (.op o next') s n := by
  refine hnext ?_
  rw [ho]
  exact h.call _

/-! ### Sections -/

/-- The previous-hop section. -/
theorem previousHopSection_agrees (hids : ∀ o s, ids o s ≠ 0) (h : s.Shows n)
    (senderIp listed : U32) (hnext : ∀ s' n', s'.Shows n' → Agrees env ids ends next next' s' n') :
    Agrees env ids ends (previousHopSection senderIp listed next)
      (OpenManet.previousHopSection env senderIp listed next') s n := by
  refine createEntry_agrees h _ _ _ _ _ _ fun p s₁ n₁ h₁ hp _ => ?_
  refine setExpirationTimer_agrees hids p _ fun id hid => hnext _ _ ?_
  rcases h₁.found hp with ⟨sender, -, he⟩
  refine h₁.update hp (RoutingEntry.previousHop env listed (n.isNew senderIp)) (fun e => ?_)
    (fun sender hnumbers _ => ?_) (fun q hq => ?_) rfl rfl ?_ ?_
  · exact previousHop_destIp env (n.isNew senderIp) e listed
  · simp only [alone, ThreadOp.apply, Shared.entry, Shared.threadOf, setBlock_same,
      setBlock_setBlock]
    refine ⟨sender, hnumbers, ?_⟩
    simp only [EntryBlock.shown, RoutingEntry.previousHop, RoutingEntry.setExpirationTimer,
      moveDeadline]
    cases n.isNew senderIp with
    | true => simp [hid]
    | false => simp [hid]
  · simp only [alone, ThreadOp.apply, setBlock_other _ _ _ _ hq]
  · simp only [Op.apply, Op.onEntry, he]
    rfl
  · simp only [Op.apply, Op.onEntry, he]
    have g := h₁.globals
    exact ⟨g.ipAddress, g.sequenceNum, g.rreqId, g.activeRoutes, congrArg (_ :: ·) g.log, g.started⟩

/-- A route is counted, once. -/
theorem activate_agrees (h : s.Shows n) {ip : U32} {p : Nat} (hp : s.find ip = some p)
    {next' : Node → Node → Handler}
    (hnext : ∀ s', s'.Shows ((Op.activate ip).apply n) → s'.routes = s.routes →
      s'.ipAddress = s.ipAddress → Agrees env ids ends next (next' n ((Op.activate ip).apply n)) s'
        ((Op.activate ip).apply n)) :
    Agrees env ids ends (activate p next) (.op (.activate ip) next') s n := by
  have hagrees := hnext (if (s.entry p).activeRoute = 0 then
    { s.setBlock p { s.blocks p with entry := { s.entry p with activeRoute := 1 } } with
      activeRoutes := s.activeRoutes + 1 } else s)
  unfold Agrees at hagrees ⊢
  rw [exec_activate]
  rcases h.found hp with ⟨sender, hnumbers, he⟩
  have g := h.globals
  by_cases hroute : (s.entry p).activeRoute = 0
  · rw [if_pos hroute] at hagrees ⊢
    have hshown : ((s.blocks p).shown sender).activeRoute = 0 := hroute
    refine hagrees ?_ rfl rfl
    refine h.update hp RoutingEntry.activate (fun e => activate_destIp e)
      (fun sender hnumbers _ => ?_) (fun q hq => setBlock_other s p q _ hq) rfl rfl ?_ ?_
    · have hshown : ((s.blocks p).shown sender).activeRoute = 0 := hroute
      refine ⟨sender, ?_, ?_⟩
      · simp only [setBlock_same]
        exact hnumbers
      · unfold RoutingEntry.activate
        rw [if_pos hshown]
        simp only [setBlock_same]
        rfl
    · simp only [Op.apply, Op.onEntry, he, if_pos hshown]
    · simp only [Op.apply, Op.onEntry, he, if_pos hshown]
      exact ⟨g.ipAddress, g.sequenceNum, g.rreqId, congrArg (· + 1) g.activeRoutes, g.log,
        g.started⟩
  · rw [if_neg hroute] at hagrees ⊢
    have hshown : ((s.blocks p).shown sender).activeRoute ≠ 0 := hroute
    refine hagrees ?_ rfl rfl
    refine h.update hp RoutingEntry.activate (fun e => activate_destIp e)
      (fun sender hnumbers _ => ?_) (fun q _ => rfl) rfl rfl ?_ ?_
    · have hshown : ((s.blocks p).shown sender).activeRoute ≠ 0 := hroute
      refine ⟨sender, hnumbers, ?_⟩
      unfold RoutingEntry.activate
      rw [if_neg hshown]
    · simp only [Op.apply, Op.onEntry, he, if_neg hshown]
    · simp only [Op.apply, Op.onEntry, he, if_neg hshown]
      exact g.update

/-- The section in which the originator of a search ends it. -/
theorem publishFound_agrees (h : s.Shows n) (m : RrepHeader)
    (hnext : ∀ s' n', s'.Shows n' → Agrees env ids ends next next' s' n') :
    Agrees env ids ends (publishFound m next) (OpenManet.publishFound m next') s n := by
  have g := h.globals
  unfold Agrees
  simp only [publishFound, OpenManet.publishFound, Prog.exec, g.ipAddress]
  by_cases hown : s.ipAddress = m.srcIp
  · rw [if_pos hown]
    cases hp : s.find m.destIp with
    | none =>
        rw [h.missing hp, if_neg (fun hcase => Bool.false_ne_true hcase.2)]
        exact hnext s n h
    | some p =>
        rcases h.found hp with ⟨sender, hnumbers, he⟩
        rw [he, if_pos ⟨hown, rfl⟩]
        -- Cancelled or not, the id is zero in the end.
        have hshows : ∀ s', (s'.blocks p).entry = { s.entry p with rreqSearch := .searchFound } →
            (∀ kind, (s'.blocks p).thread kind = if kind = .search then 0 else s.threadOf kind p) →
            (∀ q, q ≠ p → s'.blocks q = s.blocks q) → s'.routes = s.routes →
            s'.nextEntry = s.nextEntry → SameGlobals s' n →
            s'.Shows ((Op.searchFound m.destIp).apply n) := by
          intro s' hentry hthread hothers htable hnextEntry g'
          refine h.update hp RoutingEntry.searchFound (fun _ => rfl)
            (fun sender _ _ => ⟨0, ?_, ?_⟩) hothers htable hnextEntry ?_ ?_
          · rw [EntryBlock.Numbers, hthread]
            exact iff_of_true rfl rfl
          · unfold EntryBlock.shown
            rw [hentry, hthread, hthread]
            rfl
          · simp only [Op.apply, Op.onEntry, he]
            split <;> rfl
          · simp only [Op.apply, Op.onEntry, he]
            split
            · exact ⟨g'.ipAddress, g'.sequenceNum, g'.rreqId, g'.activeRoutes, g'.log, g'.started⟩
            · exact g'.update
        simp only [writeEntry, Prog.exec, locked, exec_cancelThread]
        split
        · refine hnext _ _ (hshows _ ?_ (fun kind => ?_) (fun q hq => ?_) rfl rfl
            ⟨g.ipAddress, g.sequenceNum, g.rreqId, g.activeRoutes, g.log, g.started⟩)
          · simp only [alone, ThreadOp.apply, Shared.setThread, setBlock_same]
          · simp only [alone, ThreadOp.apply, Shared.setThread, Shared.threadOf, setBlock_same]
            split <;> rfl
          · simp only [alone, ThreadOp.apply, Shared.setThread, setBlock_other _ _ _ _ hq]
        · refine hnext _ _ (hshows _ ?_ (fun kind => ?_) (fun q hq => ?_) rfl rfl
            ⟨g.ipAddress, g.sequenceNum, g.rreqId, g.activeRoutes, g.log, g.started⟩)
          · simp only [alone, ThreadOp.apply, Shared.setThread, setBlock_same]
          · simp only [alone, ThreadOp.apply, Shared.setThread, Shared.threadOf, setBlock_same]
          · simp only [alone, ThreadOp.apply, Shared.setThread, setBlock_other _ _ _ _ hq]
  · rw [if_neg hown, if_neg (fun hcase => hown hcase.1)]
    exact hnext s n h

/-- The section of `recv_rrep` for hellos. -/
theorem recvHello_agrees (hids : ∀ o s, ids o s ≠ 0) (h : s.Shows n) (senderIp : U32)
    (m : RrepHeader) :
    Agrees env ids Returned (recvHello senderIp m) (OpenManet.recvHello env senderIp m) s n := by
  refine createEntry_agrees h _ _ _ _ _ _ fun p s₁ n₁ h₁ hp _ => ?_
  rcases h₁.found hp with ⟨sender, hnumbers, he⟩
  have g := h₁.globals
  simp only [Agrees, Prog.exec, locked]
  by_cases htakes : takesHello m (n.isNew m.destIp) (s₁.entry p)
  · rw [if_pos htakes]
    refine setExpirationTimer_agrees hids p _ fun id hid => ⟨?_, rfl, _, rfl⟩
    refine h₁.update hp (RoutingEntry.hello env m (n.isNew m.destIp))
      (fun e => hello_destIp env (n.isNew m.destIp) e m) (fun sender hnumbers _ => ?_)
      (fun q hq => ?_) rfl rfl rfl ?_
    · simp only [writeEntry, Prog.exec, done, alone, ThreadOp.apply, Shared.entry, Shared.threadOf,
        setBlock_same, setBlock_setBlock]
      refine ⟨sender, hnumbers, ?_⟩
      have htest : takesHello m (n.isNew m.destIp) ((s₁.blocks p).shown sender) := htakes
      unfold RoutingEntry.hello
      rw [if_pos (by simpa [takesHello, or_assoc] using htest)]
      simp [EntryBlock.shown, RoutingEntry.setExpirationTimer, moveDeadline, hid]
    · simp only [writeEntry, Prog.exec, done, alone, ThreadOp.apply, setBlock_other _ _ _ _ hq]
    · exact ⟨g.ipAddress, g.sequenceNum, g.rreqId, g.activeRoutes, g.log, g.started⟩
  · rw [if_neg htakes]
    refine ⟨?_, rfl, _, rfl⟩
    refine h₁.update hp (RoutingEntry.hello env m (n.isNew m.destIp)) (fun e => ?_)
      (fun sender hnumbers _ => ⟨sender, hnumbers, ?_⟩) (fun q _ => rfl) rfl rfl rfl g.update
    · exact hello_destIp env (n.isNew m.destIp) e m
    · exact hello_refused env _ _ m htakes

/-- The reply is passed on, unless it was meant for this node. -/
theorem forwardRrep_agrees (h : s.Shows n) (m : RrepHeader) {p : Nat}
    (hp : s.find m.destIp = some p) :
    Agrees env ids Returned (forwardRrep p m (.unlock (.entry p) done))
      (if n.ipAddress ≠ m.srcIp then
        OpenManet.forwardRrep m (.unlock (slotOf m.destIp) acceptPacket)
      else .unlock (slotOf m.destIp) acceptPacket) s n := by
  refine agrees_read ?_
  rw [h.globals.ipAddress]
  by_cases hown : s.ipAddress ≠ m.srcIp
  · rw [if_pos hown, if_pos hown]
    refine agrees_readNode ?_
    cases ho : s.find m.srcIp with
    | none =>
        rw [h.missing ho]
        exact ⟨h, rfl, _, rfl⟩
    | some o =>
        rcases h.found ho with ⟨sender, -, he⟩
        rw [he, if_pos Option.isSome_some]
        refine agrees_lock (agrees_lockSlot (activate_agrees h ho fun s₁ h₁ htable _ => ?_))
        have hp₁ : s₁.find m.destIp = some p := (congrFun htable _).trans hp
        have ho₁ : s₁.find m.srcIp = some o := (congrFun htable _).trans ho
        generalize (Op.activate m.srcIp).apply n = n₁ at h₁ ⊢
        -- The next hops are read three times, and none of the writes changes them.
        rw [h₁.nextHopOf hp₁, h₁.nextHopOf ho₁]
        refine agrees_read (addPrecursor_agrees h₁ ho₁ _ fun h₂ => agrees_read ?_)
        rw [listed_nextHop]
        refine addPrecursor_agrees h₂ hp₁ _ fun h₃ => agrees_read ?_
        rw [listed_nextHop, listed_nextHop]
        refine agrees_call h₃ _ _ rfl fun h₄ => ?_
        exact agrees_unlock (agrees_unlock (agrees_unlockSlot (agrees_unlockSlot
          (agrees_accept h₄))))
  · rw [if_neg hown, if_neg hown]
    exact ⟨h, rfl, _, rfl⟩

/-- The forward route and everything after it. -/
theorem installForwardRoute_agrees (hids : ∀ o s, ids o s ≠ 0) (h : s.Shows n) (senderIp : U32)
    (m : RrepHeader) :
    Agrees env ids Returned (installForwardRoute senderIp m)
      (OpenManet.installForwardRoute env senderIp m) s n := by
  refine createEntry_agrees h _ _ _ _ _ _ fun p s₁ n₁ h₁ hp _ => ?_
  -- What follows the section is the same whether or not the reply is taken.
  have hafter : ∀ s₂, s₂.routes = s₁.routes →
      s₂.Shows ((Op.forwardRoute env senderIp m (n.isNew m.destIp)).apply n₁) →
      Agrees env ids Returned (activate p (forwardRrep p m (.unlock (.entry p) done)))
        (afterForwardRoute m) s₂
          ((Op.forwardRoute env senderIp m (n.isNew m.destIp)).apply n₁) := by
    intro s₂ htable h₂
    have hp₂ : s₂.find m.destIp = some p := (congrFun htable _).trans hp
    refine activate_agrees h₂ hp₂ fun s₃ h₃ htable₃ _ => ?_
    exact forwardRrep_agrees h₃ m ((congrFun htable₃ _).trans hp₂)
  rcases h₁.found hp with ⟨sender, -, he⟩
  have g := h₁.globals
  refine agrees_lock (agrees_lockSlot (agrees_read ?_))
  by_cases hfresh : (n.isNew m.destIp || fresherForward m (s₁.entry p)) = true
  · rw [if_pos hfresh]
    refine setExpirationTimer_agrees hids p _ fun id hid => hafter _ rfl ?_
    refine h₁.update hp (RoutingEntry.forwardRoute env senderIp m (n.isNew m.destIp))
      (fun e => forwardRoute_destIp env senderIp (n.isNew m.destIp) e m)
      (fun sender hnumbers _ => ?_) (fun q hq => ?_) rfl rfl ?_ ?_
    · simp only [alone, ThreadOp.apply, Shared.entry, Shared.threadOf, setBlock_same,
        setBlock_setBlock]
      refine ⟨sender, hnumbers, ?_⟩
      have htest : (n.isNew m.destIp || fresherForward m ((s₁.blocks p).shown sender)) = true :=
        hfresh
      unfold RoutingEntry.forwardRoute
      rw [if_pos htest]
      simp [EntryBlock.shown, RoutingEntry.setExpirationTimer, moveDeadline, hid]
    · simp only [alone, ThreadOp.apply, setBlock_other _ _ _ _ hq]
    · simp only [Op.apply, Op.onEntry, he, Op.addForwardRoute]
      split <;> rfl
    · have htest : (n.isNew m.destIp || fresherForward m ((s₁.blocks p).shown sender)) = true :=
        hfresh
      simp only [Op.apply, Op.onEntry, he, Op.addForwardRoute, if_pos htest]
      exact ⟨g.ipAddress, g.sequenceNum, g.rreqId, g.activeRoutes,
        congrArg (_ :: _ :: ·) g.log, g.started⟩
  · rw [if_neg hfresh]
    refine setExpirationTimer_agrees hids p _ fun id hid => hafter _ rfl ?_
    refine h₁.update hp (RoutingEntry.forwardRoute env senderIp m (n.isNew m.destIp))
      (fun e => forwardRoute_destIp env senderIp (n.isNew m.destIp) e m)
      (fun sender hnumbers _ => ?_) (fun q hq => ?_) rfl rfl ?_ ?_
    · simp only [alone, ThreadOp.apply, Shared.entry, Shared.threadOf, setBlock_same,
        setBlock_setBlock]
      refine ⟨sender, hnumbers, ?_⟩
      have htest : ¬ (n.isNew m.destIp || fresherForward m ((s₁.blocks p).shown sender)) = true :=
        hfresh
      unfold RoutingEntry.forwardRoute
      rw [if_neg htest]
      simp [EntryBlock.shown, RoutingEntry.setExpirationTimer, moveDeadline, hid]
    · simp only [alone, ThreadOp.apply, setBlock_other _ _ _ _ hq]
    · simp only [Op.apply, Op.onEntry, he, Op.addForwardRoute]
      split <;> rfl
    · have htest : ¬ (n.isNew m.destIp || fresherForward m ((s₁.blocks p).shown sender)) = true :=
        hfresh
      simp only [Op.apply, Op.onEntry, he, Op.addForwardRoute, if_neg htest]
      exact ⟨g.ipAddress, g.sequenceNum, g.rreqId, g.activeRoutes, congrArg (_ :: ·) g.log,
        g.started⟩

theorem recvRrep_agrees (hids : ∀ o s, ids o s ≠ 0) (h : s.Shows n) (senderIp : U32)
    (m : RrepHeader) :
    Agrees env ids Returned (recvRrep senderIp m) (OpenManet.recvRrep env senderIp m) s n := by
  refine publishFound_agrees h m fun s₁ n₁ h₁ => ?_
  by_cases hhello : m.srcIp = 0
  · rw [if_pos hhello, if_pos hhello]
    exact recvHello_agrees hids h₁ senderIp _
  · rw [if_neg hhello, if_neg hhello]
    exact previousHopSection_agrees hids h₁ senderIp m.destIp fun s₂ n₂ h₂ =>
      installForwardRoute_agrees hids h₂ senderIp _

/-! ### Requests -/

theorem sendRrepDestination_agrees (h : s.Shows n) (m : RreqHeader) (senderIp : U32) :
    Agrees env ids Returned (sendRrepDestination m senderIp)
      (OpenManet.sendRrepDestination env m senderIp acceptPacket) s n := by
  have g := h.globals
  refine ⟨h.keep rfl rfl rfl rfl ⟨g.ipAddress, ?_, g.rreqId, g.activeRoutes, ?_, g.started⟩,
    rfl, _, rfl⟩
  · show nextOwnSeq m n.sequenceNum = nextOwnSeq m (s.number .sequenceNum)
    rw [g.sequenceNum]
  · show .sendUnicast senderIp (.rrep (generateRrepMessage _ 0 n.ipAddress
        (nextOwnSeq m n.sequenceNum) m.srcIp _) []) :: n.log =
      .sendUnicast senderIp (.rrep (generateRrepMessage _ 0 s.ipAddress
        (nextOwnSeq m (s.number .sequenceNum)) m.srcIp _) []) :: s.log
    rw [g.sequenceNum, g.ipAddress, g.log]

/-- The answer from the table, for a request whose originator has an entry. -/
theorem sendRrepIntermediate_agrees (h : s.Shows n) (m : RreqHeader) (senderIp : U32) {p o : Nat}
    (hp : s.find m.destIp = some p) (ho : s.find m.srcIp = some o) :
    Agrees env ids Returned (sendRrepIntermediate m senderIp)
      (OpenManet.sendRrepIntermediate env m senderIp acceptPacket) s n := by
  refine agrees_read ?_
  rw [hp]
  refine agrees_lock (agrees_lockSlot (addPrecursor_agrees h hp senderIp fun h₁ => ?_))
  have hp₁ : (s.listed p senderIp).find m.destIp = some p := hp
  rcases h₁.found hp₁ with ⟨sender, -, he⟩
  refine agrees_unlock (agrees_unlockSlot (agrees_read ?_))
  rw [he]
  refine agrees_call h₁ _ _ rfl fun h₂ => agrees_read ?_
  generalize hs₂ : (s.listed p senderIp).called _ = s₂ at h₂ ⊢
  have ho₂ : s₂.find m.srcIp = some o := by
    rw [← hs₂]
    exact ho
  -- The next hop it goes by is the one the table has had all the time.
  have hhop : ((s.listed p senderIp).entry p).nextHop = (s₂.entry p).nextHop := by
    rw [← hs₂]
    rfl
  rw [ho₂]
  refine agrees_lock (agrees_lockSlot (agrees_read ?_))
  rw [show (((s.listed p senderIp).blocks p).shown sender).nextHop = (s₂.entry p).nextHop from hhop]
  refine addPrecursor_agrees h₂ ho₂ _ fun h₃ => ?_
  refine agrees_unlock (agrees_unlockSlot (agrees_read ?_))
  by_cases hflags : m.flags ≠ 0
  · rw [if_pos hflags, if_pos hflags]
    refine agrees_call h₃ _ _ ?_ fun h₄ => agrees_accept h₄
    rw [listed_nextHop]
    rfl
  · rw [if_neg hflags, if_neg hflags]
    exact agrees_accept h₃

theorem Shared.Shows.any (h : s.Shows n) (ip : U32) (test : RoutingEntry → Bool)
    (htest : ∀ b sender, test (EntryBlock.shown b sender) = test b.entry) :
    (n.getRoutingEntry ip).any test = ((s.find ip).map s.entry).any test := by
  cases hp : s.find ip with
  | none =>
      rw [h.missing hp]
      rfl
  | some p =>
      rcases h.found hp with ⟨sender, -, he⟩
      rw [he]
      exact htest _ sender

theorem forwardedRreq_shown (h : s.Shows n) (m : RreqHeader) :
    forwardedRreq m (n.getRoutingEntry m.destIp) =
      forwardedRreq m ((s.find m.destIp).map s.entry) := by
  cases hp : s.find m.destIp with
  | none =>
      rw [h.missing hp]
      rfl
  | some p =>
      rcases h.found hp with ⟨sender, -, he⟩
      rw [he]
      rfl

theorem answerOrForward_agrees (h : s.Shows n) (m : RreqHeader) (senderIp : U32) {o : Nat}
    (ho : s.find m.srcIp = some o) :
    Agrees env ids Returned (answerOrForward senderIp m)
      (OpenManet.answerOrForward env senderIp m) s n := by
  refine agrees_read (agrees_readNode ?_)
  simp only [h.any m.destIp (answersFromTable m) fun _ _ => rfl, forwardedRreq_shown h]
  by_cases hanswers : ((s.find m.destIp).map s.entry).any (answersFromTable m) = true
  · rw [if_pos hanswers, if_pos hanswers]
    cases hp : s.find m.destIp with
    | none =>
        rw [hp] at hanswers
        cases hanswers
    | some p => exact sendRrepIntermediate_agrees h m senderIp hp ho
  · rw [if_neg hanswers, if_neg hanswers]
    by_cases httl : m.ttl ≤ 1
    · rw [if_pos httl, if_pos httl]
      exact agrees_accept h
    · rw [if_neg httl, if_neg httl]
      exact ⟨h.call _, rfl, _, rfl⟩

/-- The reverse route and everything after it. -/
theorem recvNewRreq_agrees (hids : ∀ o s, ids o s ≠ 0) (h : s.Shows n) (senderIp : U32)
    (m : RreqHeader) :
    Agrees env ids Returned (recvNewRreq senderIp m)
      (OpenManet.recvNewRreq env senderIp m) s n := by
  refine createEntry_agrees h _ _ _ _ _ _ fun p s₁ n₁ h₁ hp _ => ?_
  -- What follows the section.
  have hafter : ∀ s₂, s₂.routes = s₁.routes →
      s₂.Shows ((Op.reverseRoute env senderIp m (n.isNew m.srcIp)).apply n₁) →
      Agrees env ids Returned
        (.read fun s =>
          if s.ipAddress = m.destIp then
            activate p <| .unlock (.entry p) <| sendRrepDestination m senderIp
          else .unlock (.entry p) <| answerOrForward senderIp m)
        (afterReverseRoute env senderIp m
          ((Op.reverseRoute env senderIp m (n.isNew m.srcIp)).apply n₁)) s₂
          ((Op.reverseRoute env senderIp m (n.isNew m.srcIp)).apply n₁) := by
    intro s₂ htable h₂
    have hp₂ : s₂.find m.srcIp = some p := (congrFun htable _).trans hp
    refine agrees_read ?_
    unfold afterReverseRoute
    rw [h₂.globals.ipAddress]
    by_cases hown : s₂.ipAddress = m.destIp
    · rw [if_pos hown, if_pos hown]
      refine activate_agrees h₂ hp₂ fun s₃ h₃ _ _ => ?_
      exact sendRrepDestination_agrees h₃ m senderIp
    · rw [if_neg hown, if_neg hown]
      exact answerOrForward_agrees h₂ m senderIp hp₂
  rcases h₁.found hp with ⟨sender, -, he⟩
  have g := h₁.globals
  refine agrees_lock (agrees_lockSlot ?_)
  refine startRreqTimer_agrees hids p fun id hid => ?_
  refine setExpirationTimer_agrees hids p _ fun id' hid' => hafter _ rfl ?_
  refine h₁.update hp (RoutingEntry.reverseRoute env senderIp m (n.isNew m.srcIp))
    (fun e => reverseRoute_destIp env senderIp (n.isNew m.srcIp) e m)
    (fun sender hnumbers _ => ?_) (fun q hq => ?_) rfl rfl ?_ ?_
  · simp only [alone, ThreadOp.apply, Shared.entry, Shared.threadOf, Shared.setThread,
      setBlock_same, setBlock_setBlock]
    refine ⟨sender, hnumbers, ?_⟩
    simp only [RoutingEntry.reverseRoute, RoutingEntry.startRreqTimer, reverseLifetime,
      RoutingEntry.setExpirationTimer, moveDeadline]
    -- The test reads nothing that has been written before it.
    by_cases htest : (n.isNew m.srcIp || fresherReverse m (s₁.blocks p).entry) = true
    · simp only [fresherReverse] at htest
      simp [fresherReverse, EntryBlock.shown, htest, hid, hid']
    · simp only [fresherReverse] at htest
      simp [fresherReverse, EntryBlock.shown, htest, hid, hid']
  · simp only [alone, ThreadOp.apply, Shared.setThread, setBlock_other _ _ _ _ hq]
  · simp only [Op.apply, Op.onEntry, he]
    rfl
  · simp only [Op.apply, Op.onEntry, he]
    refine ⟨g.ipAddress, g.sequenceNum, g.rreqId, g.activeRoutes, ?_, g.started⟩
    refine congrArg₂ (fun d l => .addUnicastRoutingEntry d senderIp :: l) ?_ g.log
    simp only [alone, ThreadOp.apply, Shared.entry, Shared.setThread, setBlock_same]
    split <;> rfl

theorem recvRreq_agrees (hids : ∀ o s, ids o s ≠ 0) (h : s.Shows n) (senderIp : U32)
    (m : RreqHeader) :
    Agrees env ids Returned (recvRreq senderIp m) (OpenManet.recvRreq env senderIp m) s n := by
  refine previousHopSection_agrees hids h senderIp m.srcIp fun s₁ n₁ h₁ => ?_
  refine agrees_read (agrees_readNode ?_)
  rw [h₁.globals.ipAddress, h₁.any m.srcIp (isDuplicate s₁.ipAddress m) fun _ _ => rfl]
  by_cases hown : m.srcIp = s₁.ipAddress
  · rw [if_pos hown, if_pos hown]
    exact agrees_accept h₁
  · rw [if_neg hown, if_neg hown]
    by_cases hduplicate : ((s₁.find m.srcIp).map s₁.entry).any (isDuplicate s₁.ipAddress m) = true
    · rw [if_pos hduplicate, if_pos hduplicate]
      exact agrees_accept h₁
    · rw [if_neg hduplicate, if_neg hduplicate]
      exact recvNewRreq_agrees hids h₁ senderIp _

end Agreement

end Threads

end OpenManet
