import OpenManet.Core.Threads

/-!
# Mutexes of Cancelled Threads

A thread that asks for asynchronous cancellation may be ended while it holds a mutex,
which then stays locked for ever. `pthread_cancel` does not wait for the end: until the
cancellation takes effect the thread runs on, and may come to lock a mutex.

A timer locks no mutex but its entry's. So the functions that cancel it under that mutex
end it safely if the cancellation takes effect before they unlock, and `free_entry` does
at any time, since nobody is to lock the mutex of a removed entry again. `send_rreq`
cancels a timer without the mutex, and may find it in its section. And whoever cancels a
search, with the entry's mutex or without, may find it inside `increment_safe`, where it
holds the mutex of a number all searches and all answers need.

Elsewhere nothing is held: asleep, on the way to a lock, to a broadcast or out of the
program. No mutex is lost in a run that ends its threads there, or its timers while a
caller is in its section of the entry.

## Main definitions

* `Live`: The mutex of an entry in use, or of a number.
* `EndsHoldNothing`: A thread that is ended holds no such mutex.
* `Rests`, `EndsAtRest`: Where a thread may be ended.
* `discipline`, `handles`: What the threads keep to, and what the ids in an entry are of.

## Theorems

* `routine_keeps`: Every routine keeps the discipline.
* `endsAtRest_holds_nothing`: A thread that is ended there holds nothing.
* `cancel_orphans_nothing`: No mutex is ever lost if all are ended there.
* `not_cancel_orphans_nothing_reply`: A reply that ends a search in `increment_safe`.
-/

namespace OpenManet

namespace Threads

/-- The threads running side by side. -/
abbrev ThreadPool := Pool Routine Shared ThreadOp Mutex

abbrev threadStep : ThreadPool → PoolInput Call Env → ThreadPool := poolStep threading

/-- The mutex of a number, or of an entry that has not been given to `free_entry`. -/
def Live (s : Shared) : Mutex → Prop
  | .entry p => s.freed p = false
  | .safe _ => True

/-- A thread that the input ends holds no mutex of a live object. -/
def EndsHoldNothing (c : ThreadPool) (input : PoolInput Call Env) : Prop :=
  ∀ j victim, c.Ends input j victim → ∀ k, Live c.shared k → k ∉ c.heldBy j

/-- The routine is that of the thread whose id the entry keeps, or a loop of it. -/
def Routine.Serves (kind : Service) (p : Nat) : Routine → Prop
  | expirationFunc q => kind = .expiration ∧ q = p
  | rreqIdFunc q => kind = .rreqId ∧ q = p
  | sendRreqThread q | ringLoop q _ _ | retryLoop q _ _ => kind = .search ∧ q = p
  | call _ | waitLoop _ => False

/-- What the thread does next is to sleep, to lock a mutex, to return, to broadcast its
    request or to delete its entry. -/
def Rests (kind : Service) (p : Nat) (program : Program) : Prop :=
  match program with
  | .ret _ | .lock _ _ | .op .sleep _ | .op (.remove _) _ => True
  | .op (.call _) _ => kind = .search
  | _ => program = deleteEntry p

/-- A cancellation takes effect where the thread rests. That of a timer may also come
    while another thread holds the entry's mutex, as its caller does up to its unlock, or
    when the entry has been taken out. -/
def EndsAtRest (c : ThreadPool) (input : PoolInput Call Env) : Prop :=
  ∀ j victim kind p, c.Ends input j victim → victim.routine.Serves kind p →
    Rests kind p victim.program ∨ (kind ≠ .search ∧
      (c.shared.freed p = true ∨ ∃ i, i ≠ j ∧ c.owner (.entry p) = some i))

/-! ### The discipline -/

/-- The mutexes a routine may lock: the thread functions lock that of their entry, and
    the search those of the numbers. -/
def Routine.mutexes : Routine → Set Mutex
  | expirationFunc p | rreqIdFunc p => {.entry p}
  | sendRreqThread p | ringLoop p _ _ | retryLoop p _ _ => {k | k = .entry p ∨ ∃ g, k = .safe g}
  | call _ | waitLoop _ => Set.univ

/-- A routine that is no thread function. -/
def Routine.Outside (r : Routine) : Prop := ∀ kind p, ¬ r.Serves kind p

/-- A thread sleeps and deletes an entry with nothing held, and so does a search
    broadcast. -/
def Routine.Allows (r : Routine) (held : Set Mutex) (_s : Shared) : ThreadOp → Prop
  | .sleep | .remove _ => held = ∅
  | .call _ => (∃ p, r.Serves .search p) → held = ∅
  | _ => True

theorem freed_apply (env : Env) (id : Nat) (o : ThreadOp) (s : Shared) (p : Nat)
    (h : s.freed p = true) : (o.apply env id s).freed p = true := by
  cases o with
  | create =>
      simp only [ThreadOp.apply]
      split
      · exact h
      · exact h
  | remove destIp =>
      -- Another entry is freed, or this one once more.
      simp only [ThreadOp.apply]
      split
      · exact h
      · simp only []
        split
        · rfl
        · exact h
  | write | cancel | clear | spawn | assign | addActiveRoutes | call | sleep => exact h

/-- What the routines keep to: freed entries stay freed, and the loops of a thread serve
    the entry it serves. -/
def discipline : Discipline threading where
  later s s' := ∀ p, s.freed p = true → s'.freed p = true
  later_refl _ _ h := h
  later_trans _ _ _ h h' p hp := h' p (h p hp)
  later_apply env id o s p h := freed_apply env id o s p h
  mutexes := Routine.mutexes
  nests := Routine.Outside
  allows := Routine.Allows
  goesOn r r' := ∀ kind p, r.Serves kind p → r'.Serves kind p

/-- The program keeps the discipline in every state. -/
def Follows (r : Routine) (held : Set Mutex) (program : Program) : Prop :=
  ∀ s, program.Keeps discipline r s held

section Rules

variable {r : Routine} {held : Set Mutex} {next : Program}

theorem follows_done : Follows r ∅ done := by
  refine fun s => ⟨rfl, ?_⟩
  intro r' h
  cases h

theorem follows_goesOn (r' : Routine) (h : ∀ kind p, r.Serves kind p → r'.Serves kind p) :
    Follows r ∅ (.ret (some r')) := by
  refine fun s => ⟨rfl, ?_⟩
  intro r'' hr
  cases hr
  exact h

theorem follows_op (o : ThreadOp) (after : Shared → Shared → Program)
    (hallows : ∀ s, r.Allows held s o) (h : ∀ s s', Follows r held (after s s')) :
    Follows r held (.op o after) :=
  fun _ s' _ => ⟨hallows s', fun _ _ => h _ _ _⟩

/-- A call to the kernel or to the network, by a thread that is no search. -/
theorem follows_call (c : Env → ApiCall) (hr : ∀ p, ¬ r.Serves .search p)
    (h : Follows r held next) : Follows r held (.op (.call c) fun _ _ => next) :=
  follows_op _ _ (fun _ ⟨p, hp⟩ => absurd hp (hr p)) (fun _ _ => h)

theorem follows_read (after : Shared → Program) (h : ∀ s, Follows r held (after s)) :
    Follows r held (.read after) :=
  fun _ s' _ => h s' s'

theorem follows_writeEntry (p : Nat) (f : RoutingEntry → RoutingEntry) (h : Follows r held next) :
    Follows r held (writeEntry p f next) :=
  follows_op _ _ (fun _ => trivial) (fun _ _ => h)

theorem follows_unlock (k : Mutex) (hk : k ∉ held) (h : Follows r held next) :
    Follows r (insert k held) (.unlock k next) := by
  refine fun s => ⟨Set.mem_insert k held, ?_⟩
  rw [Set.insert_sdiff_self_of_notMem hk]
  exact h s

/-- The first mutex a routine locks. -/
theorem follows_lock (k : Mutex) (hk : k ∈ r.mutexes) (h : Follows r (insert k ∅) next) :
    Follows r ∅ (.lock k next) :=
  fun s => ⟨hk, Or.inl rfl, fun _ => h s⟩

/-- Unlocking it again. -/
theorem follows_release (k : Mutex) (h : Follows r ∅ next) :
    Follows r (insert k ∅) (.unlock k next) :=
  follows_unlock k (Set.notMem_empty k) h

/-- A routine that may hold two mutexes. -/
theorem follows_lockSecond (k : Mutex) (hr : r.Outside) (hk : k ∈ r.mutexes)
    (h : k ∉ held → Follows r (insert k held) next) : Follows r held (.lock k next) :=
  fun s => ⟨hk, Or.inr hr, fun hnot => h hnot s⟩

theorem follows_cancelThread (kind : Service) (p : Nat) (after : Program)
    (hafter : Follows r held after) (h : Follows r held next) :
    Follows r held (cancelThread kind p after next) := by
  refine follows_read _ (fun s => ?_)
  split
  · exact follows_op _ _ (fun _ => trivial) (fun _ _ => hafter)
  · exact h

theorem follows_setExpirationTimer (p : Nat) (ms : Env → RoutingEntry → U32)
    (h : Follows r held next) : Follows r held (setExpirationTimer p ms next) := by
  have hstart : Follows r held (.op (.write p (moveDeadline ms)) fun _ _ =>
      .op (.spawn .expiration p) fun _ _ => next) :=
    follows_op _ _ (fun _ => trivial) (fun _ _ => follows_op _ _ (fun _ => trivial) (fun _ _ => h))
  exact follows_cancelThread .expiration p _
    (follows_op _ _ (fun _ => trivial) (fun _ _ => hstart)) hstart

theorem follows_startRreqTimer (p : Nat) (h : Follows r held next) :
    Follows r held (startRreqTimer p next) := by
  have hstart : Follows r held (.op (.spawn .rreqId p) fun _ _ => next) :=
    follows_op _ _ (fun _ => trivial) (fun _ _ => h)
  exact follows_cancelThread .rreqId p _ hstart hstart

theorem follows_freeEntry (p : Nat) (h : Follows r held next) :
    Follows r held (freeEntry p next) := by
  have hsearch := follows_cancelThread .search p next h h
  exact follows_cancelThread .rreqId p _ hsearch hsearch

theorem follows_incrementSafe (target : Safe) (after : U32 → Program)
    (hk : .safe target ∈ r.mutexes) (h : ∀ value, Follows r ∅ (after value)) :
    Follows r ∅ (incrementSafe target after) :=
  follows_lock _ hk <| follows_read _ fun _ => follows_op _ _ (fun _ => trivial) fun _ _ =>
    follows_read _ fun s => follows_release _ (h (s.number target))

end Rules

/-! ### The thread functions -/

theorem deleteEntry_follows (p : Nat) : Follows (.expirationFunc p) ∅ (deleteEntry p) := by
  refine follows_read _ (fun s => follows_op _ _ (fun _ => rfl) (fun before _ => ?_))
  split
  · exact follows_done
  · exact follows_freeEntry _ follows_done

theorem expirationFunc_follows (p : Nat) :
    Follows (.expirationFunc p) ∅ (expirationFunc p) := by
  refine follows_op _ _ (fun _ => rfl) (fun _ _ => ?_)
  refine follows_lock (.entry p) rfl (follows_read _ (fun s => ?_))
  split
  · exact follows_release _ (deleteEntry_follows p)
  · refine follows_writeEntry _ _ (follows_read _ (fun s => ?_))
    refine follows_call _ (fun q hq => by cases hq.1) ?_
    have hend : Follows (.expirationFunc p) (insert (.entry p) ∅)
        (.op (.write p fun env e => { e with timeOut := env.now }) fun _ _ =>
          writeEntry p (fun e => { e with timeOut := addTimeMs e.timeOut (toU32 deletePeriod) })
            (.unlock (.entry p) (.ret (some (.expirationFunc p))))) := by
      refine follows_op _ _ (fun _ => trivial) (fun _ _ => follows_writeEntry _ _ ?_)
      exact follows_release _ (follows_goesOn _ (fun _ _ h => h))
    refine follows_read _ (fun s => ?_)
    split
    · exact follows_op _ _ (fun _ => trivial) (fun _ _ => hend)
    · exact hend

theorem rreqIdFunc_follows (p : Nat) : Follows (.rreqIdFunc p) ∅ (rreqIdFunc p) := by
  refine follows_op _ _ (fun _ => rfl) (fun _ _ => follows_lock (.entry p) rfl ?_)
  refine follows_writeEntry _ _ (follows_op _ _ (fun _ => trivial) (fun _ _ => ?_))
  exact follows_release _ follows_done

theorem sendRreqThread_follows (p : Nat) : Follows (.sendRreqThread p) ∅ (sendRreqThread p) := by
  refine follows_incrementSafe .sequenceNum _ (Or.inr ⟨_, rfl⟩) (fun seq => ?_)
  refine follows_lock (.entry p) (Or.inl rfl) (follows_read _ (fun s => ?_))
  exact follows_release _ (follows_goesOn _ (fun _ _ h => h))

/-- A round of a search goes on with a loop of the same thread. -/
theorem sendRound_follows {r : Routine} (rreq : RreqHeader) (ttl : BitVec 11) (next : Program)
    (hk : .safe .rreqId ∈ r.mutexes) (h : Follows r ∅ next) :
    Follows r ∅ (sendRound rreq ttl next) :=
  follows_incrementSafe .rreqId _ hk fun _ => follows_op _ _ (fun _ _ => rfl) fun _ _ =>
    follows_op _ _ (fun _ => rfl) fun _ _ => h

theorem ringLoop_follows (p : Nat) (rreq : RreqHeader) (ttl : U32) :
    Follows (.ringLoop p rreq ttl) ∅ (ringLoop p rreq ttl) := by
  unfold ringLoop
  split
  · exact sendRound_follows rreq _ _ (Or.inr ⟨_, rfl⟩) (follows_goesOn _ (fun _ _ h => h))
  · exact follows_goesOn _ (fun _ _ h => h)

theorem retryLoop_follows (p : Nat) (rreq : RreqHeader) (i : Nat) :
    Follows (.retryLoop p rreq i) ∅ (retryLoop p rreq i) := by
  unfold retryLoop
  split
  · exact sendRound_follows rreq _ _ (Or.inr ⟨_, rfl⟩) (follows_goesOn _ (fun _ _ h => h))
  · refine follows_lock (.entry p) (Or.inl rfl) (follows_op _ _ (fun _ => trivial) (fun _ _ => ?_))
    refine follows_writeEntry _ _ (follows_setExpirationTimer p _ ?_)
    exact follows_release _ follows_done

/-! ### What is called from outside -/

section Outside

variable {r : Routine} (hr : r.Outside) (hmutexes : r.mutexes = Set.univ)

include hr hmutexes

omit hr in
theorem follows_entryLock {next : Program} (p : Nat)
    (h : Follows r (insert (.entry p) ∅) next) : Follows r ∅ (.lock (.entry p) next) :=
  follows_lock (.entry p) (hmutexes ▸ Set.mem_univ _) h

omit hr hmutexes in
theorem follows_createEntry (destIp destSeq : U32) (v : SeqValid) (hop count time : U32)
    (next : Nat → Bool → Program) (h : ∀ p new, Follows r ∅ (next p new)) :
    Follows r ∅ (createEntry destIp destSeq v hop count time next) := by
  refine follows_op _ _ (fun _ => trivial) (fun before after => ?_)
  split
  · exact follows_done
  · exact h _ _

theorem startSearch_follows (p : Nat) : Follows r ∅ (startSearch p) := by
  have hwait : Follows r ∅ (.ret (some (.waitLoop p))) :=
    follows_goesOn _ (fun kind q h => absurd h (hr kind q))
  refine follows_read _ (fun s => ?_)
  split
  · exact hwait
  · refine follows_entryLock hmutexes p (follows_op _ _ (fun _ => trivial) (fun _ _ => ?_))
    exact follows_writeEntry _ _ (follows_release _ hwait)

theorem previousHopSection_follows (senderIp listed : U32) {next : Program}
    (h : Follows r ∅ next) : Follows r ∅ (previousHopSection senderIp listed next) := by
  refine follows_createEntry _ _ _ _ _ _ _ (fun p new => follows_entryLock hmutexes p ?_)
  refine follows_writeEntry _ _ (follows_writeEntry _ _ ?_)
  refine follows_call _ (hr .search) (follows_op _ _ (fun _ => trivial) (fun _ _ => ?_))
  exact follows_setExpirationTimer p _ (follows_release _ h)

omit hr hmutexes in
theorem follows_activate {held : Set Mutex} {next : Program} (p : Nat) (h : Follows r held next) :
    Follows r held (activate p next) := by
  refine follows_read _ (fun s => ?_)
  split
  · exact follows_writeEntry _ _ (follows_op _ _ (fun _ => trivial) (fun _ _ => h))
  · exact h

omit hr in
theorem publishFound_follows (m : RrepHeader) {next : Program} (h : Follows r ∅ next) :
    Follows r ∅ (publishFound m next) := by
  refine follows_read _ (fun s => ?_)
  split
  · exact h
  · rename_i p _
    have hfinish : Follows r (insert (.entry p) ∅)
        (.op (.clear .search p) fun _ _ => .unlock (.entry p) next) :=
      follows_op _ _ (fun _ => trivial) (fun _ _ => follows_release _ h)
    refine follows_entryLock hmutexes p (follows_writeEntry _ _ ?_)
    exact follows_cancelThread .search p _
      (follows_op _ _ (fun _ => trivial) (fun _ _ => hfinish)) hfinish

omit hr in
theorem recvHello_follows (senderIp : U32) (m : RrepHeader) :
    Follows r ∅ (recvHello senderIp m) := by
  refine follows_createEntry _ _ _ _ _ _ _ (fun p new => follows_entryLock hmutexes p ?_)
  refine follows_read _ (fun s => ?_)
  split
  · refine follows_writeEntry _ _ (follows_setExpirationTimer p _ (follows_writeEntry _ _ ?_))
    exact follows_release _ follows_done
  · exact follows_release _ follows_done

/-- The originator's mutex is the second one, or the program waits for itself. -/
theorem forwardRrep_follows (p : Nat) (m : RrepHeader) {next : Program}
    (h : Follows r (insert (.entry p) ∅) next) :
    Follows r (insert (.entry p) ∅) (forwardRrep p m next) := by
  refine follows_read _ (fun s => ?_)
  split
  · exact h
  · refine follows_lockSecond _ hr (hmutexes ▸ Set.mem_univ _) (fun hnot => ?_)
    refine follows_activate _ (follows_read _ (fun s => follows_writeEntry _ _ ?_))
    refine follows_read _ (fun s => follows_writeEntry _ _ (follows_read _ (fun s => ?_)))
    exact follows_call _ (hr .search) (follows_unlock _ hnot h)

theorem installForwardRoute_follows (senderIp : U32) (m : RrepHeader) :
    Follows r ∅ (installForwardRoute senderIp m) := by
  refine follows_createEntry _ _ _ _ _ _ _ (fun p new => follows_entryLock hmutexes p ?_)
  have hadd : ∀ {next : Program}, Follows r (insert (.entry p) ∅) next →
      Follows r (insert (.entry p) ∅)
        (.op (.call fun _ => .addUnicastRoutingEntry m.destIp senderIp) fun _ _ => next) :=
    fun h => follows_call _ (hr .search) h
  have hafter : Follows r (insert (.entry p) ∅)
      (forwardRrep p m (.unlock (.entry p) done)) :=
    forwardRrep_follows hr hmutexes p m (follows_release _ follows_done)
  -- Accepted or not, the reply restarts the timer under the mutex and goes on so.
  have hupdate := follows_writeEntry p (fun e => { e with status := .routeValid })
    (hadd (follows_activate p hafter))
  refine follows_read _ (fun s => ?_)
  simp only []
  split
  · refine follows_writeEntry _ _ (follows_setExpirationTimer p _ (follows_writeEntry _ _ ?_))
    exact hadd hupdate
  · exact follows_setExpirationTimer p _ hupdate

theorem recvRrep_follows (senderIp : U32) (m : RrepHeader) :
    Follows r ∅ (recvRrep senderIp m) := by
  refine publishFound_follows hmutexes m ?_
  split
  · exact recvHello_follows hmutexes senderIp _
  · exact previousHopSection_follows hr hmutexes senderIp _
      (installForwardRoute_follows hr hmutexes senderIp _)

theorem sendRrepDestination_follows (m : RreqHeader) (senderIp : U32) :
    Follows r ∅ (sendRrepDestination m senderIp) := by
  have hk : Mutex.safe .sequenceNum ∈ r.mutexes := hmutexes ▸ Set.mem_univ _
  refine follows_lock _ hk (follows_read _ (fun s => follows_release _ ?_))
  refine follows_lock _ hk (follows_op _ _ (fun _ => trivial) (fun _ _ => follows_release _ ?_))
  exact follows_read _ (fun s => follows_call _ (hr .search) follows_done)

theorem sendRrepIntermediate_follows (m : RreqHeader) (senderIp : U32) :
    Follows r ∅ (sendRrepIntermediate m senderIp) := by
  refine follows_read _ (fun s => ?_)
  split
  · exact follows_done
  · refine follows_entryLock hmutexes _ (follows_writeEntry _ _ (follows_release _ ?_))
    refine follows_read _ (fun s => follows_call _ (hr .search) (follows_read _ (fun s => ?_)))
    split
    · exact follows_done
    · refine follows_entryLock hmutexes _ (follows_read _ (fun s => ?_))
      refine follows_writeEntry _ _ (follows_release _ (follows_read _ (fun s => ?_)))
      split
      · exact follows_call _ (hr .search) follows_done
      · exact follows_done

theorem recvNewRreq_follows (senderIp : U32) (m : RreqHeader) :
    Follows r ∅ (recvNewRreq senderIp m) := by
  refine follows_createEntry _ _ _ _ _ _ _ (fun p new => follows_entryLock hmutexes p ?_)
  refine follows_writeEntry _ _ (follows_startRreqTimer p ?_)
  refine follows_writeEntry _ _ (follows_writeEntry _ _ (follows_read _ (fun s => ?_)))
  refine follows_call _ (hr .search) (follows_setExpirationTimer p _ (follows_read _ (fun s => ?_)))
  split
  · refine follows_activate p (follows_release _ ?_)
    exact sendRrepDestination_follows hr hmutexes m senderIp
  · refine follows_release _ (follows_read _ (fun s => ?_))
    -- It answers from its table, stops or passes the request on.
    simp only []
    split
    · exact sendRrepIntermediate_follows hr hmutexes m senderIp
    · split
      · exact follows_done
      · exact follows_call _ (hr .search) follows_done

theorem recvRreq_follows (senderIp : U32) (m : RreqHeader) :
    Follows r ∅ (recvRreq senderIp m) := by
  refine previousHopSection_follows hr hmutexes senderIp _ (follows_read _ (fun s => ?_))
  split
  · exact follows_done
  · split
    · exact follows_done
    · exact recvNewRreq_follows hr hmutexes senderIp _

theorem waitLoop_follows (p : Nat) : Follows r ∅ (waitLoop p) := by
  refine follows_read _ (fun s => ?_)
  split
  · exact follows_goesOn _ (fun kind q h => absurd h (hr kind q))
  · refine follows_entryLock hmutexes p (follows_read _ (fun s => follows_release _ ?_))
    refine follows_call _ (hr .search) ?_
    split
    · refine follows_entryLock hmutexes p (follows_setExpirationTimer p _ ?_)
      exact follows_release _ follows_done
    · exact follows_writeEntry _ _ follows_done

omit hr in
theorem restartTimer_follows (ip : U32) (f : Env → RoutingEntry → RoutingEntry) (ms : U32) :
    Follows r ∅ (restartTimer ip f ms) := by
  refine follows_read _ (fun s => ?_)
  split
  · exact follows_done
  · refine follows_entryLock hmutexes _ (follows_op _ _ (fun _ => trivial) (fun _ _ => ?_))
    exact follows_setExpirationTimer _ _ (follows_release _ follows_done)

end Outside

/-- `send_rreq` stops a timer without the entry's mutex. -/
theorem sendRreq_follows (destAddr : U32) :
    Follows (.call (.sendRreq destAddr)) ∅ (sendRreq destAddr) := by
  have hr : (Routine.call (.sendRreq destAddr)).Outside := fun _ _ h => h
  have hstart := fun p => startSearch_follows hr rfl p
  refine follows_op _ _ (fun _ => trivial) (fun before after => ?_)
  split
  · exact follows_done
  · rename_i p _
    -- A timer that runs is cancelled and forgotten before the search starts.
    have hstopped := follows_op (ThreadOp.clear .expiration p) (fun _ _ => startSearch p)
      (fun _ => trivial) (fun _ _ => hstart p)
    refine follows_read _ (fun s => ?_)
    split
    · exact follows_done
    · refine follows_read _ (fun s => ?_)
      split
      · exact follows_cancelThread .expiration p _ hstopped hstopped
      · exact hstart p

/-- Every routine keeps the discipline. -/
theorem routine_keeps (r : Routine) (s : Shared) :
    (threading.program r).Keeps discipline r s ∅ := by
  cases r with
  | expirationFunc p => exact expirationFunc_follows p s
  | rreqIdFunc p => exact rreqIdFunc_follows p s
  | sendRreqThread p => exact sendRreqThread_follows p s
  | ringLoop p rreq ttl => exact ringLoop_follows p rreq ttl s
  | retryLoop p rreq i => exact retryLoop_follows p rreq i s
  | waitLoop p =>
      have hr : (Routine.waitLoop p).Outside := fun _ _ h => h
      exact waitLoop_follows hr rfl p s
  | call c =>
      have hr : (Routine.call c).Outside := fun _ _ h => h
      cases c with
      | recvRreq senderIp m => exact recvRreq_follows hr rfl senderIp m s
      | recvRrep senderIp m => exact recvRrep_follows hr rfl senderIp m s
      | sendRreq destAddr => exact sendRreq_follows destAddr s
      | restartTimer ip f ms => exact restartTimer_follows rfl ip f ms s

/-! ### The ids an entry keeps -/

theorem serves_goesOn (kind : Service) (p : Nat) : (kind.routine p).Serves kind p := by
  cases kind <;> exact ⟨rfl, rfl⟩

theorem threadOf_apply (env : Env) (new : Nat) (o : ThreadOp) (s : Shared) (kind : Service)
    (p : Nat) : (o.apply env new s).threadOf kind p = s.threadOf kind p ∨
      (o.apply env new s).threadOf kind p = 0 ∨
      ((o.apply env new s).threadOf kind p = new ∧ o = .spawn kind p) := by
  have hset : ∀ kind' q id, (s.setThread kind' q id).threadOf kind p =
      if p = q ∧ kind = kind' then id else s.threadOf kind p := by
    intro kind' q id
    simp only [Shared.threadOf, Shared.setThread, Shared.setBlock]
    by_cases hp : p = q
    · subst hp
      by_cases hkind : kind = kind'
      · simp only [hkind, if_true, and_self]
      · simp only [hkind, if_true, if_false, and_false]
    · simp only [hp, if_false, false_and]
  cases o with
  | create =>
      simp only [ThreadOp.apply]
      split
      · exact Or.inl rfl
      · -- The entry made keeps no ids.
        by_cases hp : p = s.nextEntry
        · refine Or.inr (Or.inl ?_)
          simp only [Shared.threadOf, Shared.setBlock, hp, if_true]
        · refine Or.inl ?_
          simp only [Shared.threadOf, Shared.setBlock, hp, if_false]
  | write q f =>
      refine Or.inl ?_
      simp only [ThreadOp.apply, Shared.threadOf, Shared.setBlock]
      split
      · rename_i hp
        rw [hp]
      · rfl
  | clear kind' q =>
      simp only [ThreadOp.apply, hset]
      split
      · exact Or.inr (Or.inl rfl)
      · exact Or.inl rfl
  | spawn kind' q =>
      simp only [ThreadOp.apply, hset]
      split
      · rename_i hsame
        exact Or.inr (Or.inr ⟨rfl, by rw [hsame.1, hsame.2]⟩)
      · exact Or.inl rfl
  | remove destIp =>
      refine Or.inl ?_
      simp only [ThreadOp.apply]
      split <;> rfl
  | cancel | assign | addActiveRoutes | call | sleep => exact Or.inl rfl

/-- The ids an entry keeps are those of threads that serve it. -/
def handles : Handles discipline (Service × Nat) where
  id h s := s.threadOf h.1 h.2
  runs h r := r.Serves h.1 h.2
  apply_id env new o s h := by
    rcases threadOf_apply env new o s h.1 h.2 with hid | hid | ⟨hid, rfl⟩
    · exact Or.inl hid
    · exact Or.inr (Or.inl hid)
    · exact Or.inr (Or.inr ⟨hid, _, rfl, serves_goesOn h.1 h.2⟩)
  stops o s j hstop := by
    cases o with
    | cancel kind p => exact ⟨(kind, p), Control.stop.inj hstop⟩
    | _ => cases hstop
  goesOn h r r' hruns hgoes := hgoes h.1 h.2 hruns

/-! ### What is lost -/

/-- What a thread function locks. -/
theorem mutexes_of_serves (r : Routine) (kind : Service) (p : Nat) (h : r.Serves kind p)
    (k : Mutex) (hk : k ∈ r.mutexes) :
    k = .entry p ∨ (kind = .search ∧ ∃ target, k = .safe target) := by
  cases r with
  | expirationFunc q | rreqIdFunc q =>
      rcases h with ⟨-, rfl⟩
      exact Or.inl hk
  | sendRreqThread q | ringLoop q | retryLoop q =>
      rcases h with ⟨hkind, rfl⟩
      rcases hk with hk | hk
      · exact Or.inl hk
      · exact Or.inr ⟨hkind, hk⟩
  | call | waitLoop => exact absurd h id

/-- A thread function that rests holds nothing. -/
theorem held_of_rests (r : Routine) (kind : Service) (p : Nat) (hserves : r.Serves kind p)
    (program : Program) (s : Shared) (held : Set Mutex)
    (hkeeps : program.Keeps discipline r s held) (h : Rests kind p program) : held = ∅ := by
  cases program with
  | ret result => exact hkeeps.1
  | lock k next => exact hkeeps.2.1.resolve_right (fun hout => hout kind p hserves)
  | op o next =>
      have hallows := (hkeeps s (discipline.later_refl s)).1
      cases o with
      | sleep => exact hallows
      | remove destIp => exact hallows
      | call c =>
          have hkind : kind = .search := h
          exact hallows ⟨p, hkind ▸ hserves⟩
      | create | write | cancel | clear | spawn | assign | addActiveRoutes => cases h
  | read next =>
      -- It is about to read which entry to remove.
      have hdelete : Prog.read next = deleteEntry p := h
      rw [hdelete] at hkeeps
      exact (hkeeps s (discipline.later_refl s) s (discipline.later_refl s)).1
  | unlock k next => cases h

/-- A thread that is ended at rest holds no mutex of a live object. -/
theorem endsAtRest_holds_nothing (c : ThreadPool) (hkept : c.Kept discipline)
    (hknows : c.Knows handles) (input : PoolInput Call Env) (h : EndsAtRest c input) :
    EndsHoldNothing c input := by
  intro j victim hends k hlive hheld
  rcases hknows.cancelled j victim hends.cancelled hends.victim with ⟨⟨kind, p⟩, hserves⟩
  rcases h j victim kind p hends hserves with hrests | ⟨hkind, hentry⟩
  · have hnothing : c.heldBy j = ∅ := held_of_rests _ kind p hserves _ _ _
      (hkept.keeps j victim hends.victim) hrests
    rw [hnothing] at hheld
    exact hheld
  · -- A timer locks the mutex of its entry only, and that is freed or somebody else's.
    have hmutex := hkept.mutexes j victim hends.victim hheld
    rcases mutexes_of_serves _ kind p hserves k hmutex with rfl | ⟨hsearch, -⟩
    · rcases hentry with hfreed | ⟨i, hi, howner⟩
      · exact absurd (hfreed.symm.trans hlive) (by decide)
      · exact hi (Option.some.inj (howner.symm.trans hheld))
    · exact hkind hsearch

/-- A step that ends no holder of a live mutex leaves them all recoverable. -/
theorem threadStep_recoverable (c : ThreadPool) (hkept : c.Kept discipline)
    (hc : c.Recoverable threading Live) (input : PoolInput Call Env)
    (hnothing : EndsHoldNothing c input) : (threadStep c input).Recoverable threading Live := by
  have hnext := poolStep_kept discipline routine_keeps c hkept input
  rw [recoverable_iff discipline Live c hkept] at hc
  rw [recoverable_iff discipline Live _ hnext]
  intro k hlive hlost
  -- What is freed stays freed, so the object was live before.
  have hbefore : Live c.shared k := by
    cases k with
    | safe target => trivial
    | entry p =>
        cases hfreed : c.shared.freed p with
        | false => exact hfreed
        | true =>
            have hlater := poolStep_later discipline c input p hfreed
            exact absurd (hlater.symm.trans hlive) (by decide)
  rcases lost_step discipline c hkept input k hlost with hold | ⟨j, victim, hends, howner⟩
  · exact hc k hbefore hold
  · exact hnothing j victim hends k hbefore howner

/-- In every run whose cancellations take effect at rest, no thread that is ended holds a
    mutex of a live object, and every such mutex that is locked is held by a thread that
    goes on to unlock it. -/
theorem cancel_orphans_nothing (ip : U32) (inputs : List (PoolInput Call Env))
    (h : AllSteps threadStep EndsAtRest (Pool.start (boot ip)) inputs) :
    AllSteps threadStep (fun c input => EndsHoldNothing c input ∧
      (threadStep c input).Recoverable threading Live) (Pool.start (boot ip)) inputs := by
  have hsteps := AllSteps.with_invariant threadStep EndsAtRest
    (fun c => c.Kept discipline ∧ c.Knows handles ∧ c.Recoverable threading Live) ?_ _ inputs ?_ h
  · refine AllSteps.imp threadStep ?_ _ inputs hsteps
    rintro c input ⟨hrest, hkept, hknows, hc⟩
    have hnothing := endsAtRest_holds_nothing c hkept hknows input hrest
    exact ⟨hnothing, threadStep_recoverable c hkept hc input hnothing⟩
  · -- One step: a mutex can be acquired again as long as no holder is ended.
    rintro c input ⟨hkept, hknows, hc⟩ hrest
    have hnothing := endsAtRest_holds_nothing c hkept hknows input hrest
    exact ⟨poolStep_kept discipline routine_keeps c hkept input,
      poolStep_knows handles c hkept hknows input, threadStep_recoverable c hkept hc input hnothing⟩
  · -- At start-up there is no thread and no mutex is locked.
    refine ⟨start_kept discipline _, ⟨rfl, Nat.one_pos, fun _ => Nat.one_pos, ?_, ?_⟩, ?_⟩
    · intro h w hw
      cases hw
    · intro j w hcancelled
      cases hcancelled
    · intro k _ i howner
      cases howner

/-- The thread takes its next step in clear surroundings. -/
def goOn (i : Nat) : PoolInput Call Env := .advance i .clear

/-- A node looks for 2.0.0.0, with the search as its second thread. -/
def searchStarted : List (PoolInput Call Env) :=
  [.call (.sendRreq 0x02000000), goOn 1, goOn 1, goOn 1, goOn 1, goOn 1, goOn 1, goOn 1, goOn 1]

/-- A reply comes in, whose handler, the third thread, cancels the search. -/
def replyCancels : List (PoolInput Call Env) :=
  [.call (.recvRrep 0x02000000 (generateRrepMessage (fun _ => 0) 0 0x02000000 5 0x01000000
      (toU32 myRouteTimeout))),
    goOn 3, goOn 3, goOn 3, goOn 3, goOn 3]

/-- The search has sent its first request and sleeps when it is cancelled. -/
def replyInSleep : List (PoolInput Call Env) :=
  searchStarted ++ List.replicate 15 (goOn 2) ++ replyCancels

theorem cancel_orphans_nothing_replyInSleep :
    AllSteps threadStep (fun c input => EndsHoldNothing c input ∧
        (threadStep c input).Recoverable threading Live)
      (Pool.start (boot 0x01000000)) (replyInSleep ++ [.deliver 2]) := by
  refine cancel_orphans_nothing 0x01000000 (replyInSleep ++ [.deliver 2]) ?_
  rw [allSteps_append]
  constructor
  · -- Nothing is delivered before.
    have hnone : AllSteps threadStep (fun _ input => ∀ j, input ≠ .deliver j)
        (Pool.start (boot 0x01000000)) replyInSleep := by
      refine allSteps_of_mem threadStep _ _ ?_
      rintro _ hmem j rfl
      simp [replyInSleep, searchStarted, replyCancels, goOn] at hmem
    refine AllSteps.imp threadStep ?_ _ _ hnone
    exact fun c input hinput j victim kind p hends => absurd hends.input (hinput j)
  · refine ⟨fun j victim kind p hends _ => Or.inl ?_, trivial⟩
    cases hends.input
    have hvictim := hends.victim
    cases hvictim
    trivial

/-- The search has locked the mutex of the sequence number when it is cancelled. -/
def replyInIncrement : List (PoolInput Call Env) := searchStarted ++ [goOn 2] ++ replyCancels

/-- The search ends there, and the mutex of the sequence number is never unlocked. -/
theorem not_cancel_orphans_nothing_reply :
    ¬ ∀ (ip : U32) (inputs : List (PoolInput Call Env)),
      AllSteps threadStep (fun c input => EndsHoldNothing c input ∧
        (threadStep c input).Recoverable threading Live) (Pool.start (boot ip)) inputs := by
  intro h
  have hrun := h 0x01000000 (replyInIncrement ++ [.deliver 2])
  rw [allSteps_append] at hrun
  have hends : Pool.Ends (.deliver 2 : PoolInput Call Env) 2 _
      (run threadStep (Pool.start (boot 0x01000000)) replyInIncrement) := ⟨rfl, rfl, rfl⟩
  exact hrun.2.1.1 2 _ hends (.safe .sequenceNum) trivial rfl

/-- A neighbour is heard of for the first time, by thread 1, and again, by thread 3, which
    cancels the timer that the first has started and starts another. -/
def heardTwice : List (PoolInput Call Env) :=
  let hello (destSeq : U32) : PoolInput Call Env :=
    .call (.recvRrep 0x02000000 (generateRrepMessage (fun _ => 0) 0 0x02000000 destSeq 0 2000))
  hello 5 :: List.replicate 11 (goOn 1) ++ hello 6 :: List.replicate 13 (goOn 3)

-- The entry's mutex has been given back by then. The timer, which wakes up before its
-- cancellation takes effect, locks it once more.
example : Pool.Lost (.entry 0)
    (run threadStep (Pool.start (boot 0x01000000)) (heardTwice ++ [goOn 2, goOn 2, .deliver 2])) :=
  ⟨2, rfl, rfl⟩

end Threads

end OpenManet
