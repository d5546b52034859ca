import OpenManet.Theory.SerialThreads
import OpenManet.Theory.Verdicts

/-!
# Turns of a Thread

A search, a timer and a waiting call live on after the call that started them. Each goes
on for a while, stops at a sleep or at the head of its loop, and goes on from there when
it gets its next turn. The machine has a step for each of these turns, or in the case of
a waiting call three accesses, and this module compares the two. What the thread leaves
in memory shows what the step leaves in the table, and where the thread stops is where
the machine keeps it: the search thread at the head of its next loop, the timer at its
next sleep, the waiting call in its loop or at its end.

The machine goes from the ring loop of a search to the retry loop within one step. So a
turn follows the thread from head to head until it sleeps.

## Main definitions

* `headOf`: Where a search thread stands.
* `untilPause`: One turn of a thread.
* `Together`: A search thread after its turn, on both sides.

## Theorems

* `sendRreq_agrees`, `sendRreq_waits`: The call that starts a search.
* `expirationFunc_shows`, `rreqIdFunc_shows`: The timers.
* `search_together`: A round of a search thread.
* `waitLoop_together`: The test of the waiting loop.
-/

namespace OpenManet

namespace Threads

/-- Both return, or neither does. -/
def Alike (r : Option Routine) (o : Outcome) : Prop := r = none ↔ ∃ v, o = .returned v

section Searches

variable {env : Env} {ids : ThreadOp → Shared → Nat} {s : Shared} {n : Node}

/-- The search begins: the entry gets a thread, and somebody waits for it. -/
theorem startSearch_agrees (hids : ∀ o s, ids o s ≠ 0) (h : s.Shows n) {dest : U32} {p : Nat}
    (hp : s.find dest = some p) (hidle : (s.entry p).rreqSearch ≠ .searchSearching) :
    Agrees env ids Alike (startSearch p)
      (locked dest (.startSearch dest) <| .op (.beginWait dest) fun _ _ => .ret .waits) s n := by
  have g := h.globals
  refine agrees_read ?_
  rw [if_neg hidle]
  refine ⟨?_, iff_of_false nofun (by rintro ⟨v, hv⟩; cases hv)⟩
  refine h.update hp (RoutingEntry.startSearch n.nextThread) (fun _ => rfl)
    (fun sender hnumbers _ => ?_) (fun q hq => ?_) rfl rfl rfl ?_
  · simp only [writeEntry, Prog.exec, alone, ThreadOp.apply, Shared.setThread, Shared.entry,
      setBlock_same]
    refine ⟨n.nextThread, ?_, rfl⟩
    exact iff_of_false (Nat.ne_of_gt g.started) (hids _ _)
  · simp only [writeEntry, Prog.exec, alone, ThreadOp.apply, Shared.setThread,
      setBlock_other _ _ _ _ hq]
  · exact ⟨g.ipAddress, g.sequenceNum, g.rreqId, g.activeRoutes, g.log, Nat.succ_pos _⟩

theorem sendRreq_agrees (hids : ∀ o s, ids o s ≠ 0) (h : s.Shows n) (dest : U32) :
    Agrees env ids Alike (sendRreq dest) (OpenManet.sendRreq env dest) s n := by
  show Agrees env ids Alike (createEntry dest 0 .seqInvalid 0 0 (toU32 myRouteTimeout) fun p new =>
    .read fun s =>
    if (s.entry p).rreqSearch = .searchFailed ∧ (s.entry p).status = .routeInvalid then done
    else
      .read fun s =>
      if new = false ∧ (s.entry p).rreqSearch ≠ .searchSearching then
        let stopped : Program := .op (.clear .expiration p) fun _ _ => startSearch p
        cancelThread .expiration p stopped stopped
      else startSearch p) _ s n
  refine createEntry_agrees h _ _ _ _ _ _ fun p s₁ n₁ h₁ hp _ => ?_
  rcases h₁.found hp with ⟨sender, hnumbers, he⟩
  have g := h₁.globals
  unfold startOrJoin
  rw [he]
  refine agrees_read ?_
  by_cases hfailed : (s₁.entry p).rreqSearch = .searchFailed ∧ (s₁.entry p).status = .routeInvalid
  · have hshown : ((s₁.blocks p).shown sender).rreqSearch = .searchFailed ∧
      ((s₁.blocks p).shown sender).status = .routeInvalid := hfailed
    rw [if_pos hfailed]
    simp only [if_pos hshown]
    exact ⟨h₁, iff_of_true rfl ⟨_, rfl⟩⟩
  · have hshown : ¬ (((s₁.blocks p).shown sender).rreqSearch = .searchFailed ∧
      ((s₁.blocks p).shown sender).status = .routeInvalid) := hfailed
    rw [if_neg hfailed]
    simp only [if_neg hshown]
    refine agrees_read ?_
    by_cases hsearch : (s₁.entry p).rreqSearch = .searchSearching
    · -- Somebody else's search is waited for.
      have hsame : ((s₁.blocks p).shown sender).rreqSearch = .searchSearching := hsearch
      rw [if_neg (fun hcase => hcase.2 hsearch), if_pos hsame]
      refine agrees_read ?_
      rw [if_pos hsearch]
      refine ⟨?_, iff_of_false nofun (by rintro ⟨v, hv⟩; cases hv)⟩
      exact h₁.keep rfl rfl rfl rfl
        ⟨g.ipAddress, g.sequenceNum, g.rreqId, g.activeRoutes, g.log, g.started⟩
    · have hsame : ((s₁.blocks p).shown sender).rreqSearch ≠ .searchSearching := hsearch
      rw [if_neg hsame]
      cases n.isNew dest with
      | true =>
          rw [if_neg (fun hcase => absurd hcase.1 nofun), if_pos rfl]
          exact startSearch_agrees hids h₁ hp hsearch
      | false =>
          rw [if_pos ⟨rfl, hsearch⟩, if_neg nofun]
          -- The timer is stopped first, whether or not there is a thread to cancel.
          have hstopped : (s₁.setThread .expiration p 0).Shows
              ((Op.write dest .stopTimer).apply n₁) := by
            refine h₁.update hp Write.stopTimer.apply (fun _ => rfl) (fun sender hnumbers _ => ?_)
              (fun q hq => setBlock_other s₁ p q _ hq) rfl rfl rfl
              ⟨g.ipAddress, g.sequenceNum, g.rreqId, g.activeRoutes, g.log, g.started⟩
            simp only [Shared.setThread, setBlock_same]
            exact ⟨sender, hnumbers, rfl⟩
          have hidle : ((s₁.setThread .expiration p 0).entry p).rreqSearch ≠ .searchSearching := by
            simp only [Shared.setThread, Shared.entry, setBlock_same]
            exact hsearch
          have hrest : Agrees env ids Alike (startSearch p) _ _ _ :=
            startSearch_agrees hids hstopped hp hidle
          unfold Agrees at hrest ⊢
          simp only [exec_cancelThread, ite_self, Prog.exec]
          exact hrest

/-- A call that does not return waits for the entry it has found. -/
theorem startSearch_waits (p : Nat) :
    ((startSearch p).exec (alone env ids) s).2 = some (.waitLoop p) ∧
      ((startSearch p).exec (alone env ids) s).1.routes = s.routes := by
  simp only [startSearch, Prog.exec]
  split
  · exact ⟨rfl, rfl⟩
  · exact ⟨rfl, rfl⟩

theorem sendRreq_waits (dest : U32) (after : Shared × Option Routine)
    (hafter : after = (sendRreq dest).exec (alone env ids) s) :
    after.2 = none ∨ ∃ p, after.2 = some (.waitLoop p) ∧ after.1.find dest = some p := by
  rw [hafter]
  simp only [sendRreq, Prog.exec]
  generalize alone env ids (.create dest 0 .seqInvalid 0 0 (toU32 myRouteTimeout)) s = s₁
  cases hp : s₁.find dest with
  | none => exact Or.inl rfl
  | some p =>
      have hstarts : ∀ s₂ : Shared, s₂.routes = s₁.routes →
          ((startSearch p).exec (alone env ids) s₂).2 = some (.waitLoop p) ∧
            ((startSearch p).exec (alone env ids) s₂).1.find dest = some p := by
        intro s₂ htable
        refine ⟨(startSearch_waits p).1, ?_⟩
        unfold Shared.find
        rw [(startSearch_waits p).2, htable]
        exact hp
      simp only [Prog.exec]
      split
      · exact Or.inl rfl
      · simp only [Prog.exec]
        split
        · simp only [exec_cancelThread, ite_self, Prog.exec]
          exact Or.inr ⟨p, hstarts _ rfl⟩
        · exact Or.inr ⟨p, hstarts _ rfl⟩

/-- The machine has one waiting call more, or none has begun to wait. -/
theorem sendRreq_waiters (dest : U32) (n : Node) (after : Node × Outcome)
    (hafter : after = (OpenManet.sendRreq env dest).exec Op.apply n) :
    ((∃ v, after.2 = .returned v) ∧ after.1.waiters = n.waiters) ∨
      (after.2 = .waits ∧ after.1.waiters = n.waiters ++ [⟨dest, .waiting⟩]) := by
  rw [hafter]
  simp only [OpenManet.sendRreq, startOrJoin, Prog.exec, Op.apply]
  have hkept : (n.createOrGetRoutingEntry env dest 0 .seqInvalid 0 0
      (toU32 myRouteTimeout)).waiters = n.waiters := by
    rw [Node.createOrGet_frame]
  generalize n.createOrGetRoutingEntry env dest 0 .seqInvalid 0 0 (toU32 myRouteTimeout) = n₁ at *
  cases n₁.getRoutingEntry dest with
  | none => exact Or.inl ⟨⟨_, rfl⟩, hkept⟩
  | some e =>
      rw [← hkept]
      simp only []
      split
      · exact Or.inl ⟨⟨_, rfl⟩, rfl⟩
      · split
        · exact Or.inr ⟨rfl, rfl⟩
        · split
          · exact Or.inr ⟨rfl, rfl⟩
          · exact Or.inr ⟨rfl, rfl⟩

/-! ### The threads of an entry -/

/-- The entry of an address is taken out of the table. -/
theorem Shared.Shows.remove {s' : Shared} {n' : Node} (h : s.Shows n) (ip : U32)
    (hblocks : s'.blocks = s.blocks)
    (htable : s'.routes = removeEntryFromDataStructure s.routes ip)
    (hnext : s'.nextEntry = s.nextEntry) (hroutes : n'.routes = n.routes.removeRoutingEntry ip)
    (hglobals : SameGlobals s' n') : s'.Shows n' := by
  have hkept : ∀ i q, s'.routes i = some q → s.routes i = some q := by
    intro i q hq
    rw [htable] at hq
    unfold removeEntryFromDataStructure at hq
    split at hq
    · cases hq
    · exact hq
  refine ⟨hglobals, fun i => ?_, fun i q hq => ?_, fun i j q hi hj => ?_⟩
  · rw [htable, hroutes, RoutingTable.removeRoutingEntry_slots, hblocks]
    unfold removeEntryFromDataStructure
    by_cases hi : i = slotOf ip
    · rw [if_pos hi, if_pos hi]
      exact .none
    · rw [if_neg hi, if_neg hi]
      exact h.slots i
  · rw [hnext]
    exact h.used i q (hkept i q hq)
  · exact h.distinct i j q (hkept i q hi) (hkept j q hj)

/-- `free_entry` ends threads and changes nothing else. -/
theorem exec_freeEntry (p : Nat) (next : Program) :
    (freeEntry p next).exec (alone env ids) s = next.exec (alone env ids) s := by
  simp only [freeEntry, exec_cancelThread, ite_self]

/-- An expiration timer that wakes up, on both sides. -/
theorem expirationFunc_shows (h : s.Shows n) {ip : U32} {p : Nat} (hp : s.find ip = some p)
    (htimer : s.threadOf .expiration p ≠ 0) :
    ((expirationFunc p).exec (alone env ids) s).1.Shows
        ((OpenManet.expirationFunc env ip).exec Op.apply n).1 ∧
      ((expirationFunc p).exec (alone env ids) s).2 =
        if n.isValid ip then some (.expirationFunc p) else none := by
  have g := h.globals
  rcases h.found hp with ⟨sender, hnumbers, he⟩
  have hrunning : (n.getRoutingEntry ip).any (·.expirationThread) = true := by
    rw [he]
    exact decide_eq_true htimer
  simp only [expirationFunc, OpenManet.expirationFunc, Prog.exec, if_pos hrunning]
  rw [show alone env ids .sleep s = s from rfl]
  cases hstatus : (s.entry p).status with
  | routeInvalid =>
      have hinvalid : n.isValid ip = false := by
        unfold Node.isValid
        rw [he]
        refine decide_eq_false fun hvalid => ?_
        cases hstatus.symm.trans hvalid
      rw [hinvalid, if_pos rfl, if_neg Bool.false_ne_true, if_neg Bool.false_ne_true]
      -- What is removed is what lies in the slot of the address.
      have hslot : slotOf (s.entry p).destIp = slotOf ip :=
        n.routes.keyed (slotOf ip) ((s.blocks p).shown sender) he
      have hfind : s.find (s.entry p).destIp = some p := by
        unfold Shared.find findEntryInDataStructure
        rw [hslot]
        exact hp
      simp only [deleteEntry, Prog.exec, hfind, exec_freeEntry]
      refine ⟨?_, rfl⟩
      have hremove : alone env ids (.remove (s.entry p).destIp) s =
          { s with
            routes := removeEntryFromDataStructure s.routes (s.entry p).destIp
            freed := fun q => if q = p then true else s.freed q } := by
        simp only [alone, ThreadOp.apply, hfind]
      rw [hremove]
      refine h.remove (s.entry p).destIp rfl rfl rfl ?_ ?_
      · simp only [Op.apply, he]
        split <;> rfl
      · simp only [Op.apply, he]
        split <;> exact ⟨g.ipAddress, g.sequenceNum, g.rreqId, g.activeRoutes, g.log, g.started⟩
  | routeValid =>
      have hvalid : n.isValid ip = true := by
        unfold Node.isValid
        rw [he]
        exact decide_eq_true hstatus
      rw [hvalid, if_neg (by decide), if_pos rfl, if_pos rfl]
      have hshows : ∀ s' n', s'.blocks p = { s.blocks p with
            entry := { s.entry p with
              status := .routeInvalid, timeOut := addTimeMs env.now (toU32 deletePeriod) } } →
          (∀ q, q ≠ p → s'.blocks q = s.blocks q) → s'.routes = s.routes →
          s'.nextEntry = s.nextEntry →
          n'.routes = (n.updateEntry ip (RoutingEntry.expireRoute env)).routes →
          SameGlobals s' n' → s'.Shows n' := by
        intro s' n' hblock hothers htable hnext hroutes hglobals
        refine h.update hp (RoutingEntry.expireRoute env) (fun _ => rfl)
          (fun sender hnumbers _ => ?_) hothers htable hnext hroutes hglobals
        rw [hblock]
        exact ⟨sender, hnumbers, rfl⟩
      have hroutes : ((Op.expireRoute env ip).apply n).routes =
          (n.updateEntry ip (RoutingEntry.expireRoute env)).routes := by
        simp only [Op.apply, Op.onEntry, he, Node.releaseRoute]
        split
        · split <;> rfl
        · rfl
      simp only [expireEntry, writeEntry, Prog.exec]
      split
      · rename_i hcount
        simp only [alone, ThreadOp.apply, Shared.entry, setBlock_same] at hcount
        have hseq : ((s.blocks p).shown sender).seqValid = .seqValid := hcount.2
        have hactive : n.activeRoutes > 0 := by
          rw [g.activeRoutes]
          exact hcount.1
        simp only [Prog.exec]
        refine ⟨hshows _ _ ?_ (fun q hq => ?_) rfl rfl hroutes ?_, trivial⟩
        · simp only [alone, ThreadOp.apply, Shared.entry, setBlock_same]
        · simp only [alone, ThreadOp.apply, setBlock_other _ _ _ _ hq]
        · simp only [Op.apply, Op.onEntry, he, if_pos hseq, Node.releaseRoute]
          rw [if_pos (show (Node.call _ (Node.updateEntry ip _ n)).activeRoutes > 0 from hactive)]
          simp only [alone, ThreadOp.apply, Shared.entry, setBlock_same]
          refine ⟨g.ipAddress, g.sequenceNum, g.rreqId, ?_, congrArg (_ :: ·) g.log, g.started⟩
          show n.activeRoutes - (s.blocks p).entry.activeRoute =
            s.activeRoutes + -(s.blocks p).entry.activeRoute
          rw [g.activeRoutes, BitVec.sub_eq_add_neg]
      · rename_i hcount
        simp only [alone, ThreadOp.apply, Shared.entry, setBlock_same] at hcount
        simp only [Prog.exec]
        refine ⟨hshows _ _ ?_ (fun q hq => ?_) rfl rfl hroutes ?_, trivial⟩
        · simp only [alone, ThreadOp.apply, Shared.entry, setBlock_same]
        · simp only [alone, ThreadOp.apply, setBlock_other _ _ _ _ hq]
        · -- With no route counted nothing is taken off the count.
          have hrelease : ∀ n' : Node, n'.activeRoutes = n.activeRoutes →
              (if ((s.blocks p).shown sender).seqValid = .seqValid then
                n'.releaseRoute ((s.blocks p).shown sender).activeRoute else n') = n' := by
            intro n' hn'
            by_cases hseq : ((s.blocks p).shown sender).seqValid = .seqValid
            · rw [if_pos hseq]
              refine if_neg (fun hactive => hcount ⟨?_, hseq⟩)
              rw [hn', g.activeRoutes] at hactive
              exact hactive
            · exact if_neg hseq
          simp only [Op.apply, Op.onEntry, he]
          rw [hrelease _ (by exact rfl)]
          simp only [alone, ThreadOp.apply, Shared.entry, setBlock_same]
          exact ⟨g.ipAddress, g.sequenceNum, g.rreqId, g.activeRoutes, congrArg (_ :: ·) g.log,
            g.started⟩

/-- The timer of a request id that wakes up, on both sides. -/
theorem rreqIdFunc_shows (h : s.Shows n) {ip : U32} {p : Nat} (hp : s.find ip = some p)
    (htimer : s.threadOf .rreqId p ≠ 0) :
    ((rreqIdFunc p).exec (alone env ids) s).1.Shows
        ((OpenManet.rreqIdFunc ip).exec Op.apply n).1 ∧
      ((rreqIdFunc p).exec (alone env ids) s).2 = none := by
  have g := h.globals
  rcases h.found hp with ⟨sender, hnumbers, he⟩
  have hrunning : (n.getRoutingEntry ip).any (·.rreqIdThread) = true := by
    rw [he]
    exact decide_eq_true htimer
  simp only [rreqIdFunc, OpenManet.rreqIdFunc, writeEntry, Prog.exec, if_pos hrunning, locked, done]
  refine ⟨?_, trivial⟩
  refine h.update hp Write.forgetRreqId.apply (fun _ => rfl) (fun sender hnumbers _ => ?_)
    (fun q hq => ?_) rfl rfl rfl ?_
  · simp only [alone, ThreadOp.apply, Shared.setThread, Shared.threadOf, Shared.entry,
      setBlock_same]
    exact ⟨sender, hnumbers, rfl⟩
  · simp only [alone, ThreadOp.apply, Shared.setThread, setBlock_other _ _ _ _ hq]
  · exact ⟨g.ipAddress, g.sequenceNum, g.rreqId, g.activeRoutes, g.log, g.started⟩

/-! ### The rounds of a search -/

/-- The head of the loop at which a search thread with this entry stands. -/
def headOf (p : Nat) : SearchStage → Routine
  | .starting => .sendRreqThread p
  | .ring rreq ttl => .ringLoop p rreq ttl
  | .retry rreq i => .retryLoop p rreq i

/-- The routine sleeps or ends before it comes to another head. -/
def Routine.pauses : Routine → Bool
  | sendRreqThread _ => false
  | ringLoop _ _ ttl => decide (ttl ≤ ttlThreshold)
  | _ => true

/-- A thread goes on from head to head until it pauses, past so many of them at most. -/
def follow (env : Env) (ids : ThreadOp → Shared → Nat) :
    Nat → Routine → Shared → Shared × Option Routine
  | 0, r, s => r.program.exec (alone env ids) s
  | heads + 1, r, s =>
    let after := r.program.exec (alone env ids) s
    if r.pauses then after
    else
      match after.2 with
      | none => after
      | some r' => follow env ids heads r' after.1

/-- A thread runs until it pauses. -/
def untilPause (env : Env) (ids : ThreadOp → Shared → Nat) (r : Routine) (s : Shared) :
    Shared × Option Routine := follow env ids 2 r s

theorem follow_pauses (heads : Nat) (r : Routine) (hpauses : r.pauses = true) :
    follow env ids heads r s = r.program.exec (alone env ids) s := by
  cases heads with
  | zero => rfl
  | succ heads => exact if_pos hpauses

/-- Memory and node are alike, and the thread stands where the machine has it. -/
def Together (t : SearchThread) (p : Nat) (after : Shared × Option Routine) (n : Node) : Prop :=
  after.1.Shows n ∧ after.2 = (n.threadOf t.id).map fun u => headOf p u.stage

/-- The thread that has sent its request is the one that is found. -/
theorem threadOf_sendRreq (t : SearchThread) (rreq : RreqHeader) (ttl : BitVec 11)
    (stage : SearchStage) (ht : n.threadOf t.id = some t) :
    ((Op.sendRreq t.id rreq ttl stage).apply n).threadOf t.id =
      some { t with stage := stage } := by
  unfold Node.threadOf at ht ⊢
  simp only [Op.apply, Node.call, Node.moveThread]
  rw [List.find?_map]
  have hsame : ((fun u : SearchThread => decide (u.id = t.id)) ∘ fun u : SearchThread =>
      if u.id = t.id then { u with stage := stage } else u) = fun u => decide (u.id = t.id) := by
    funext u
    simp only [Function.comp]
    split <;> rfl
  rw [hsame, ht, Option.map_some, if_pos rfl]

/-- One request is sent under the next id. -/
theorem sendRound_together (h : s.Shows n) (t : SearchThread) (ht : n.threadOf t.id = some t)
    (p : Nat) (rreq : RreqHeader) (ttl : BitVec 11) (stage : SearchStage) :
    Together t p ((sendRound rreq ttl (.ret (some (headOf p stage)))).exec (alone env ids) s)
      ((Op.sendRreq t.id rreq ttl stage).apply n) := by
  have g := h.globals
  refine ⟨h.keep rfl rfl rfl rfl
    ⟨g.ipAddress, g.sequenceNum, ?_, g.activeRoutes, ?_, g.started⟩, ?_⟩
  · exact congrArg (· + 1) g.rreqId
  · show .sendBroadcast (.rreq { rreq with rreqId := n.rreqId + 1, ttl := ttl }) :: n.log =
      .sendBroadcast (.rreq { rreq with rreqId := s.number .rreqId + 1, ttl := ttl }) :: s.log
    rw [g.rreqId, g.log]
  · rw [threadOf_sendRreq t rreq ttl stage ht]
    rfl

theorem retryLoop_together (hids : ∀ o s, ids o s ≠ 0) (h : s.Shows n) (t : SearchThread)
    (ht : n.threadOf t.id = some t) {p : Nat} (hp : s.find t.dest = some p) (rreq : RreqHeader)
    (i : Nat) :
    Together t p ((retryLoop p rreq i).exec (alone env ids) s)
      ((retryStep env t rreq i).exec Op.apply n).1 := by
  unfold retryLoop retryStep
  by_cases hi : i ≤ rreqRetries
  · rw [if_pos hi, if_pos hi]
    exact sendRound_together h t ht p rreq _ (.retry rreq (i + 1))
  · -- The search has failed: the thread ends, and its entry names none.
    rw [if_neg hi, if_neg hi]
    have g := h.globals
    simp only [writeEntry, Prog.exec, locked]
    rcases exec_setExpirationTimer env ids (alone env ids
      (.write p fun _ e => { e with rreqSearch := .searchFailed })
      (alone env ids (.clear .search p) s)) p hids (fun _ _ => toU32 (2 * netTraversalTime))
      (.unlock (.entry p) done) with ⟨id, hid, hexec⟩
    rw [hexec]
    refine ⟨?_, ?_⟩
    · refine h.update hp (RoutingEntry.searchFailed env) (fun _ => rfl)
        (fun sender _ _ => ⟨0, ?_, ?_⟩) (fun q hq => ?_) rfl rfl rfl
        ⟨g.ipAddress, g.sequenceNum, g.rreqId, g.activeRoutes, g.log, g.started⟩
      · simp [done, Prog.exec, alone, ThreadOp.apply, Shared.setThread, Shared.threadOf,
          Shared.entry, EntryBlock.Numbers]
      · simp [done, Prog.exec, alone, ThreadOp.apply, Shared.setThread, Shared.threadOf,
          Shared.entry, EntryBlock.shown, RoutingEntry.searchFailed,
          RoutingEntry.setExpirationTimer, moveDeadline, hid]
      · simp only [done, Prog.exec, alone, ThreadOp.apply, Shared.setThread,
          setBlock_other _ _ _ _ hq]
    · have hover : ((Op.searchFailed env t.id t.dest).apply n).threadOf t.id = none := by
        unfold Node.threadOf
        rw [List.find?_eq_none]
        intro u hu
        have hne := (pthreadCancel_threads t.id _ u hu).2
        simpa only [decide_eq_true_eq] using hne
      rw [hover]
      rfl

theorem ringLoop_together (hids : ∀ o s, ids o s ≠ 0) (h : s.Shows n) (t : SearchThread)
    (ht : n.threadOf t.id = some t) {p : Nat} (hp : s.find t.dest = some p) (rreq : RreqHeader)
    (ttl : U32) (heads : Nat) :
    Together t p (follow env ids (heads + 1) (.ringLoop p rreq ttl) s)
      ((ringStep env t rreq ttl).exec Op.apply n).1 := by
  unfold ringStep
  by_cases httl : ttl ≤ ttlThreshold
  · rw [if_pos httl, follow_pauses (heads + 1) (.ringLoop p rreq ttl) (decide_eq_true httl)]
    simp only [Routine.program, ringLoop, if_pos httl]
    exact sendRound_together h t ht p rreq _ (.ring rreq (ttl + ttlIncrement))
  · rw [if_neg httl]
    -- The first retry follows at once.
    have hnext : follow env ids (heads + 1) (.ringLoop p rreq ttl) s =
        follow env ids heads (.retryLoop p rreq 0) s := by
      simp only [follow, Routine.pauses, Routine.program, ringLoop, if_neg httl, Prog.exec,
        decide_eq_true_eq]
    rw [hnext, follow_pauses _ _ rfl]
    exact retryLoop_together hids h t ht hp rreq 0

/-- A round of a search thread on both sides. -/
theorem search_together (hids : ∀ o s, ids o s ≠ 0) (h : s.Shows n) (t : SearchThread)
    (ht : n.threadOf t.id = some t) {p : Nat} (hp : s.find t.dest = some p) :
    Together t p (untilPause env ids (headOf p t.stage) s)
      (step n { env := env, event := .search t.id }) := by
  show Together t p _ ((searchThreadStep env t.id).exec Op.apply n).1
  simp only [searchThreadStep, Prog.exec]
  rw [show n.threads.find? (fun u => decide (u.id = t.id)) = some t from ht]
  simp only []
  cases hstage : t.stage with
  | starting =>
      have g := h.globals
      simp only [Prog.exec]
      -- The next number of its own is taken first.
      have hnumber : (s.setNumber .sequenceNum (s.number .sequenceNum + 1)).Shows
          (Op.incrementSequenceNum.apply n) :=
        h.keep rfl rfl rfl rfl ⟨g.ipAddress, congrArg (· + 1) g.sequenceNum, g.rreqId,
          g.activeRoutes, g.log, g.started⟩
      have ht' : (Op.incrementSequenceNum.apply n).threadOf t.id = some t := ht
      rcases hnumber.found hp with ⟨sender, -, he⟩
      rw [he]
      simp only []
      rw [hnumber.globals.ipAddress, hnumber.globals.sequenceNum]
      exact ringLoop_together hids hnumber t ht' hp
        (searchRequest s.ipAddress (s.number .sequenceNum + 1) (s.entry p)) _ 0
  | ring rreq ttl => exact ringLoop_together hids h t ht hp rreq ttl 1
  | retry rreq i =>
      unfold untilPause
      rw [follow_pauses _ _ rfl]
      exact retryLoop_together hids h t ht hp rreq i

/-! ### A call that waits -/

/-- The call has returned. -/
def hasReturned (w : Waiter) : Bool :=
  match w.stage with
  | .returned _ => true
  | _ => false

/-- What a call does with the outcome it has read. -/
theorem lastAccess_together (hids : ∀ o s, ids o s ≠ 0) (h : s.Shows n) {k : Nat} {dest : U32}
    {p : Nat} (outcome : RreqStatus) (hw : n.waiters[k]? = some ⟨dest, .decided outcome⟩)
    (hp : s.find dest = some p) (program : Program)
    (hprogram : program = if outcome = .searchFailed then
        .lock (.entry p) <| setExpirationTimer p (fun _ _ => 500) <| .unlock (.entry p) done
      else writeEntry p (fun e => { e with rreqSearch := .searchNone }) done) :
    (program.exec (alone env ids) s).1.Shows (step n { env := env, event := .wait k }) ∧
      (program.exec (alone env ids) s).2 = none ∧
        ((step n { env := env, event := .wait k }).waiters[k]?).any hasReturned = true := by
  rcases h.found hp with ⟨sender, -, he⟩
  have g := h.globals
  show _ ∧ _ ∧ ((((waiterStep env k).exec Op.apply n).1).waiters[k]?).any hasReturned = true
  rw [show step n { env := env, event := .wait k } =
    ((waiterStep env k).exec Op.apply n).1 from rfl]
  simp only [waiterStep, hw, he, Prog.exec]
  by_cases hfailed : outcome = .searchFailed
  · rw [hprogram, if_pos hfailed, if_pos hfailed]
    simp only [locked, dropPacket, Prog.exec]
    rcases exec_setExpirationTimer env ids s p hids (fun _ _ => 500) (.unlock (.entry p) done) with
      ⟨id, hid, hexec⟩
    rw [hexec]
    refine ⟨?_, rfl, ?_⟩
    · refine h.update hp (Write.timer env 500).apply (fun _ => rfl)
        (fun sender hnumbers _ => ⟨sender, ?_, ?_⟩) (fun q hq => ?_) rfl rfl rfl
        ⟨g.ipAddress, g.sequenceNum, g.rreqId, g.activeRoutes, g.log, g.started⟩
      · simp only [done, Prog.exec, setBlock_same]
        exact hnumbers
      · simp [done, Prog.exec, EntryBlock.shown, Write.apply, RoutingEntry.setExpirationTimer,
          moveDeadline, Shared.entry, Shared.threadOf, hid]
      · exact setBlock_other s p q _ hq
    · rw [moveWaiter_waiters k ((Op.write dest (.timer env 500)).apply n) dest _ _ hw]
      rfl
  · rw [hprogram, if_neg hfailed, if_neg hfailed]
    simp only [writeEntry, done, acceptPacket, Prog.exec]
    refine ⟨?_, trivial, ?_⟩
    · refine h.update hp Write.searchNone.apply (fun _ => rfl)
        (fun sender hnumbers _ => ⟨sender, ?_, ?_⟩) (fun q hq => setBlock_other s p q _ hq)
        rfl rfl rfl ⟨g.ipAddress, g.sequenceNum, g.rreqId, g.activeRoutes, g.log, g.started⟩
      · simp only [alone, ThreadOp.apply, setBlock_same]
        exact hnumbers
      · simp only [alone, ThreadOp.apply, setBlock_same]
        rfl
    · rw [moveWaiter_waiters k ((Op.write dest .searchNone).apply n) dest _ _ hw]
      rfl

/-- A test of the waiting loop is one access of the call if the search is going on, and
    else all that are left to it. -/
theorem waitLoop_together (hids : ∀ o s, ids o s ≠ 0) (h : s.Shows n) {k : Nat} {dest : U32}
    {p : Nat} (hw : n.waiters[k]? = some ⟨dest, .waiting⟩) (hp : s.find dest = some p)
    (after : Shared × Option Routine) (hafter : after = (waitLoop p).exec (alone env ids) s)
    (n' : Node) (hn' : n' = run step n (accesses k [env, env, env])) :
    after.1.Shows n' ∧
      after.2 = if (n'.waiters[k]?).any hasReturned then none else some (.waitLoop p) := by
  rcases h.found hp with ⟨sender, -, he⟩
  have g := h.globals
  by_cases hsearch : (s.entry p).rreqSearch = .searchSearching
  · have hsame : step n { env := env, event := .wait k } = n := by
      show ((waiterStep env k).exec Op.apply n).1 = n
      have hshown : ((s.blocks p).shown sender).rreqSearch = .searchSearching := hsearch
      simp only [waiterStep, Prog.exec, hw, he, if_pos hshown]
    have hidle : n' = n := by
      rw [hn']
      show step (step (step n _) _) _ = n
      rw [hsame, hsame, hsame]
    rw [hafter, hidle]
    simp only [waitLoop, Prog.exec, if_pos hsearch, hw]
    exact ⟨h, rfl⟩
  · have hleft : step n { env := env, event := .wait k } = (Op.moveWaiter k .left).apply n := by
      show ((waiterStep env k).exec Op.apply n).1 = _
      have hshown : ¬ ((s.blocks p).shown sender).rreqSearch = .searchSearching := hsearch
      simp only [waiterStep, Prog.exec, hw, he, if_neg hshown]
    generalize hn₁ : (Op.moveWaiter k .left).apply n = n₁ at hleft
    have hw₁ : n₁.waiters[k]? = some ⟨dest, .left⟩ := by
      rw [← hn₁]
      exact moveWaiter_waiters k n dest _ _ hw
    have he₁ : n₁.getRoutingEntry dest = some ((s.blocks p).shown sender) := by
      rw [← hn₁]
      exact he
    have h₁ : s.Shows n₁ := by
      rw [← hn₁]
      exact h.keep rfl rfl rfl rfl ⟨g.ipAddress, g.sequenceNum, g.rreqId, g.activeRoutes, g.log,
        g.started⟩
    -- The outcome is read, and the time of the search reported.
    have hread : step n₁ { env := env, event := .wait k } =
        (Op.sendUnicast n₁.ipAddress .timing).apply
          ((Op.moveWaiter k (.decided (s.entry p).rreqSearch)).apply n₁) := by
      show ((waiterStep env k).exec Op.apply n₁).1 = _
      simp only [waiterStep, Prog.exec, hw₁, he₁]
      rfl
    generalize hn₂ : (Op.sendUnicast n₁.ipAddress .timing).apply
      ((Op.moveWaiter k (.decided (s.entry p).rreqSearch)).apply n₁) = n₂ at hread
    have hw₂ : n₂.waiters[k]? = some ⟨dest, .decided (s.entry p).rreqSearch⟩ := by
      rw [← hn₂]
      exact moveWaiter_waiters k n₁ dest _ _ hw₁
    have he₂ : n₂.getRoutingEntry dest = some ((s.blocks p).shown sender) := by
      rw [← hn₂]
      exact he₁
    have h₂ : (s.called (.sendUnicast s.ipAddress .timing)).Shows n₂ := by
      rw [← hn₂, ← h₁.globals.ipAddress]
      refine (h₁.call (.sendUnicast n₁.ipAddress .timing)).keep rfl rfl rfl rfl ?_
      have g' := (h₁.call (.sendUnicast n₁.ipAddress .timing)).globals
      exact ⟨g'.ipAddress, g'.sequenceNum, g'.rreqId, g'.activeRoutes, g'.log, g'.started⟩
    have hp₂ : (s.called (.sendUnicast s.ipAddress .timing)).find dest = some p := hp
    have hlast : n' = step n₂ { env := env, event := .wait k } := by
      rw [hn']
      show step (step (step n _) _) _ = _
      rw [hleft, hread]
    rcases lastAccess_together hids h₂ _ hw₂ hp₂ _ rfl with ⟨hshows, hends, hover⟩
    rw [hafter, hlast, if_pos hover]
    simp only [waitLoop, Prog.exec, if_neg hsearch]
    exact ⟨hshows, hends⟩

end Searches

end Threads

end OpenManet
