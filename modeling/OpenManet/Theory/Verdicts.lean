import OpenManet.Theory.RingSearch
import OpenManet.Library.Locks

/-!
# Every Call Can Return

A packet for an unknown destination is held up in `send_rreq` until the search for the
destination is over. The call spins on the outcome the search publishes in the entry,
and the only thread that is sure to publish one is the search thread the entry names.
So an entry that is searched for always has to name a thread that runs, across whatever
the handlers do to the entry and to the threads meanwhile. It does: the operations that
end a thread end the search as well, and the one that starts a search starts the thread.

From every state, then, the call can come to its end, unless a mutex has been left
locked that it or the thread is going to wait for. The thread left to run for its rounds
publishes that the search has failed, unless it is over already; three accesses later the
call has its verdict, which is to drop the packet exactly if the outcome it reads is a
failed search. Nobody waits on the way: rounds and accesses leave no mutex locked.

## Main definitions

* `SearchLive`: The searches of the table have running threads.
* `mutexStep`: A step together with the mutexes left locked.
* `accesses`, `RoutingEntry.searchRounds`: The accesses of a waiting call, and the rounds
  its entry's search has left.
* `RoutingEntry.outcome`, `Waiter.verdict`: What a call is going to read and to return.

## Theorems

* `searchLive_apply`: What every operation keeps of this.
* `search_ends`: A search thread left to run ends the search.
* `call_returns`: Every call can return, and with which verdict.
-/

namespace OpenManet

/-! ### A search has a thread -/

/-- An entry that is searched for names a thread that runs and works for its slot. -/
def SearchLive (n : Node) : Prop :=
  ∀ i e, n.routes.slots i = some e → e.rreqSearch = .searchSearching →
    ∃ t ∈ n.threads, t.id = e.rreqMessageSender ∧ slotOf t.dest = i

theorem effect_keepsSender (n : Node) (o : Op) (hkeeps : o.KeepsSearch) (ip : U32)
    (f : RoutingEntry → RoutingEntry) (heff : o.effect n = .update ip f) (e : RoutingEntry) :
    (f e).rreqMessageSender = e.rreqMessageSender ∧ o.LeavesThreads := by
  cases o with
  | previousHop env s l new =>
      cases heff
      rcases previousHop_eq env new e l with ⟨t, ht⟩
      rw [ht]
      exact ⟨rfl, trivial⟩
  | reverseRoute | hello | forwardRoute =>
      exact ⟨(effect_frame n _ ip f heff trivial e).rreqMessageSender, trivial⟩
  | activate ip =>
      cases heff
      rw [activate_eq]
      exact ⟨rfl, trivial⟩
  | write ip w =>
      cases heff
      cases w with
      | searchNone => exact absurd hkeeps id
      | timer | stopTimer | precursor | forgetRreqId => exact ⟨rfl, trivial⟩
  | breakRoute | linkBreak | outgoingBreak | expireRoute =>
      cases heff
      exact ⟨rfl, trivial⟩
  | searchFound | startSearch | searchFailed => exact absurd hkeeps id
  | create | removeEntry | beginWait | moveWaiter | moveHello | incrementSequenceNum
  | writeSequenceNum | sendRreq | sendUnicast | sendBroadcast => cases heff

theorem searchLive_apply (event : Event) (n : Node) (o : Op) (hknown : ThreadsKnown n)
    (hguard : o.Guard event n) (hn : SearchLive n) : SearchLive (o.apply n) := by
  intro i e he hsearch
  by_cases htouch : ∃ ip f, o.effect n = .update ip f ∧ i = slotOf ip
  · rcases htouch with ⟨ip, f, heff, hslot⟩
    rw [apply_slots, heff] at he
    simp only [Effect.slot, if_pos hslot] at he
    rcases Option.map_eq_some_iff.mp he with ⟨e₀, he₀, rfl⟩
    by_cases hkeeps : o.KeepsSearch
    · -- The search was on before, and no thread is ended.
      rw [effect_rreqSearch n o hkeeps ip f heff] at hsearch
      rcases effect_keepsSender n o hkeeps ip f heff e₀ with ⟨hsender, hleaves⟩
      rw [hsender, (apply_sameThreads n o hleaves).threads]
      exact hn i e₀ he₀ hsearch
    · cases o with
      | startSearch dest =>
          cases heff
          refine ⟨⟨n.nextThread, ip, .starting⟩, ?_, rfl, hslot.symm⟩
          exact List.mem_append_right _ List.mem_cons_self
      | searchFound | searchFailed =>
          cases heff
          cases hsearch
      | write ip w =>
          cases heff
          cases w with
          | searchNone => cases hsearch
          | timer | stopTimer | precursor | forgetRreqId => exact absurd trivial hkeeps
      | removeEntry => cases heff
      | _ => exact absurd trivial hkeeps
  · -- The entry is another one, and so is the one whose thread is ended, if any.
    have hremoved : ∀ ip, o.effect n = .remove ip → i ≠ slotOf ip := by
      intro ip heff hslot
      rw [apply_slots, heff] at he
      simp only [Effect.slot, if_pos hslot] at he
      cases he
    rcases entry_origin n o i e he with hfresh | hold | ⟨ip, f, e₀, heff, hslot, -, -⟩
    · cases o with
      | create =>
          cases hfresh
          cases hsearch
      | _ => cases hfresh
    · rcases hn i e hold hsearch with ⟨t, ht, hid, hdest⟩
      rcases thread_survives event n o hknown hguard i t ht hdest (by
        rintro ip (⟨f, heff⟩ | heff) hslot
        · exact htouch ⟨ip, f, heff, hslot⟩
        · exact hremoved ip heff hslot) with ⟨t', ht', hid', hdest'⟩
      exact ⟨t', ht', hid'.trans hid, hdest'⟩
    · exact absurd ⟨ip, f, heff, hslot⟩ htouch

/-- Between steps and within them: ids are in order, and searches have their threads. -/
structure SearchesRun (n : Node) : Prop where
  known : ThreadsKnown n
  live : SearchLive n

theorem run_searchesRun (ip bcast : U32) (hello : Nat → Byte) (inputs : List Input) :
    SearchesRun (run step (Node.boot ip bcast hello) inputs) :=
  node_invariant_guarded (fun _ _ => True) SearchesRun
    (fun event o n hn hguard _ => ⟨threadsKnown_apply n o hn.known,
      searchLive_apply event n o hn.known hguard hn.live⟩)
    _ inputs
    ⟨boot_threadsKnown ip bcast hello,
      fun i e he => absurd he (Node.boot_slots_ne ip bcast hello i e)⟩
    (allSteps_of_forall step
      (fun n input => Prog.meets_of_forall Op.apply (fun _ _ => trivial) input.handler n) _ inputs)

/-! ### The thread ends its search -/

/-- One round leaves table and waiting calls as they are and the thread with fewer
    rounds left, or publishes that the search has failed. -/
theorem round_ends (env : Env) (id : Nat) (t : SearchThread) (n : Node) (e : RoutingEntry)
    (hfind : n.threadOf id = some t) (he : n.routes.slots (slotOf t.dest) = some e)
    (n' : Node) (hnext : n' = step n { env := env, event := .search id }) :
    n'.waiters = n.waiters ∧
      ((n'.routes = n.routes ∧ ∃ stage, n'.threadOf id = some { t with stage := stage } ∧
          stage.rounds < t.stage.rounds) ∨
        (n'.threadOf id = none ∧
          n'.routes.slots (slotOf t.dest) = some (e.searchFailed env))) := by
  have hid : t.id = id := by simpa only [decide_eq_true_eq] using List.find?_some hfind
  have hprogress := (search_progresses env id t n hfind ⟨e, he⟩).ahead
  rw [← hnext] at hprogress
  have hround := search_round env t n id hfind
  rw [← hnext] at hround
  cases hround with
  | asks seq rreq ttl stage hsends =>
      rw [hsends]
      rw [hsends] at hprogress
      refine ⟨rfl, Or.inl ⟨rfl, ?_⟩⟩
      rcases hprogress with ⟨hover, -⟩ | hless
      · -- Sending ends no thread.
        exfalso
        rcases apply_threads_survive { n with sequenceNum := seq } (.sendRreq t.id rreq ttl stage) t
          (List.mem_of_find?_eq_some hfind) with hcancels | ⟨u, hu, huid, -⟩
        · exact hcancels
        · have hne := List.find?_eq_none.mp hover u hu
          exact hne (decide_eq_true (huid.trans hid))
      · exact hless
  | fails hsends =>
      have hslot : ((Op.searchFailed env t.id t.dest).apply n).routes.slots (slotOf t.dest) =
          some (e.searchFailed env) := by
        rw [apply_slots]
        simp only [Op.effect, Effect.slot, if_true, he, Option.map_some]
      rw [hsends]
      refine ⟨rfl, Or.inr ⟨?_, hslot⟩⟩
      unfold Node.threadOf
      rw [List.find?_eq_none]
      intro u hu
      have hne := (pthreadCancel_threads t.id _ u hu).2
      rw [hid] at hne
      simpa only [decide_eq_true_eq] using hne
  | idle seq hsends =>
      -- With its entry there the thread is not idle.
      exfalso
      have hsame : n'.threadOf id = some t := by
        rw [hsends]
        exact hfind
      rcases hprogress with ⟨hover, -⟩ | ⟨stage, hstage, hless⟩
      · cases hover.symm.trans hsame
      · rw [hsame, Option.some.injEq] at hstage
        rw [hstage] at hless
        exact absurd hless (Nat.lt_irrefl _)

/-- A search thread left to run for its rounds publishes that the search has failed. -/
theorem search_ends (id rounds : Nat) (t : SearchThread) (n : Node) (e : RoutingEntry)
    (hfind : n.threadOf id = some t) (he : n.routes.slots (slotOf t.dest) = some e)
    (hrounds : t.stage.rounds ≤ rounds) (envs : List Env) (hlength : rounds ≤ envs.length) :
    (run step n (searchRounds id envs)).waiters = n.waiters ∧
      ∃ env, (run step n (searchRounds id envs)).routes.slots (slotOf t.dest) =
        some (e.searchFailed env) := by
  induction rounds generalizing t n envs with
  | zero =>
      -- A thread always has a round left.
      exfalso
      cases hstage : t.stage with
      | starting | ring | retry =>
          rw [hstage] at hrounds
          simp only [SearchStage.rounds] at hrounds
          omega
  | succ rounds ih =>
      cases envs with
      | nil => exact absurd hlength (Nat.not_succ_le_zero _)
      | cons env envs =>
          rcases round_ends env id t n e hfind he _ rfl with
            ⟨hwaiters, ⟨hroutes, stage, hnext, hless⟩ | ⟨hover, hfailed⟩⟩
          · have hrest := ih { t with stage := stage } _ hnext (by rw [hroutes]; exact he)
              (by simp only []; omega) envs (Nat.le_of_succ_le_succ hlength)
            rw [searchRounds, List.map_cons, run_cons, ← hwaiters]
            exact hrest
          · rw [searchRounds, List.map_cons, run_cons]
            have hidle := searchRounds_over id _ hover envs
            unfold searchRounds at hidle
            rw [hidle]
            exact ⟨hwaiters, env, hfailed⟩

/-! ### The call reads the outcome -/

/-- A waiting call makes one access in each of these surroundings. -/
def accesses (k : Nat) (envs : List Env) : List Input :=
  envs.map fun env => { env := env, event := .wait k }

/-- What becomes of the packet. -/
def RreqStatus.verdict (outcome : RreqStatus) : Verdict :=
  if outcome = .searchFailed then .packetDrop else .packetAccept

/-- What a search for the entry is going to end with when nothing but its thread runs. -/
def RoutingEntry.outcome (e : RoutingEntry) : RreqStatus :=
  if e.rreqSearch = .searchSearching then .searchFailed else e.rreqSearch

/-- What a call returns whose entry is left alone from now on. -/
def Waiter.verdict (e : RoutingEntry) (w : Waiter) : Verdict :=
  match w.stage with
  | .waiting | .left => e.outcome.verdict
  | .decided outcome => outcome.verdict
  | .returned verdict => verdict

section Accesses

variable (k : Nat) (n : Node) (dest : U32) (e : RoutingEntry)

theorem accesses_over (verdict : Verdict) (hw : n.waiters[k]? = some ⟨dest, .returned verdict⟩)
    (envs : List Env) : run step n (accesses k envs) = n := by
  induction envs with
  | nil => rfl
  | cons env envs ih =>
      have hstep : step n { env := env, event := .wait k } = n := by
        show ((waiterStep env k).exec Op.apply n).1 = n
        simp only [waiterStep, Prog.exec, hw]
        cases n.getRoutingEntry dest <;> rfl
      rw [accesses, List.map_cons, run_cons, hstep]
      exact ih

theorem moveWaiter_waiters (stage stage' : WaitStage) (hw : n.waiters[k]? = some ⟨dest, stage⟩) :
    ((Op.moveWaiter k stage').apply n).waiters[k]? = some ⟨dest, stage'⟩ := by
  show (n.waiters.modify k _)[k]? = _
  rw [List.getElem?_modify_eq, hw]
  rfl

theorem accesses_decided (outcome : RreqStatus)
    (hw : n.waiters[k]? = some ⟨dest, .decided outcome⟩)
    (he : n.getRoutingEntry dest = some e) (envs : List Env) (hlength : 1 ≤ envs.length) :
    (run step n (accesses k envs)).waiters[k]? = some ⟨dest, .returned outcome.verdict⟩ := by
  cases envs with
  | nil => exact absurd hlength (Nat.not_succ_le_zero _)
  | cons env envs =>
      have hstep : (step n { env := env, event := .wait k }).waiters[k]? =
          some ⟨dest, .returned outcome.verdict⟩ := by
        show ((waiterStep env k).exec Op.apply n).1.waiters[k]? = _
        simp only [waiterStep, Prog.exec, hw, he]
        unfold RreqStatus.verdict
        by_cases hfailed : outcome = .searchFailed
        · rw [if_pos hfailed, if_pos hfailed]
          exact moveWaiter_waiters k _ dest _ _ hw
        · rw [if_neg hfailed, if_neg hfailed]
          exact moveWaiter_waiters k _ dest _ _ hw
      rw [accesses, List.map_cons, run_cons]
      have hover := accesses_over k _ dest _ hstep envs
      unfold accesses at hover
      rw [hover]
      exact hstep

theorem accesses_left (hw : n.waiters[k]? = some ⟨dest, .left⟩)
    (he : n.getRoutingEntry dest = some e) (envs : List Env) (hlength : 2 ≤ envs.length) :
    (run step n (accesses k envs)).waiters[k]? =
      some ⟨dest, .returned e.rreqSearch.verdict⟩ := by
  cases envs with
  | nil => exact absurd hlength (Nat.not_succ_le_zero _)
  | cons env envs =>
      have hstep : step n { env := env, event := .wait k } =
          (Op.sendUnicast n.ipAddress .timing).apply
            ((Op.moveWaiter k (.decided e.rreqSearch)).apply n) := by
        show ((waiterStep env k).exec Op.apply n).1 = _
        simp only [waiterStep, Prog.exec, hw, he]
        rfl
      rw [accesses, List.map_cons, run_cons, hstep]
      exact accesses_decided k ((Op.sendUnicast n.ipAddress .timing).apply
        ((Op.moveWaiter k (.decided e.rreqSearch)).apply n)) dest e e.rreqSearch
        (moveWaiter_waiters k n dest _ _ hw) he envs (Nat.le_of_succ_le_succ hlength)

theorem accesses_waiting (hw : n.waiters[k]? = some ⟨dest, .waiting⟩)
    (he : n.getRoutingEntry dest = some e) (hover : e.rreqSearch ≠ .searchSearching)
    (envs : List Env) (hlength : 3 ≤ envs.length) :
    (run step n (accesses k envs)).waiters[k]? =
      some ⟨dest, .returned e.rreqSearch.verdict⟩ := by
  cases envs with
  | nil => exact absurd hlength (Nat.not_succ_le_zero _)
  | cons env envs =>
      have hstep : step n { env := env, event := .wait k } = (Op.moveWaiter k .left).apply n := by
        show ((waiterStep env k).exec Op.apply n).1 = _
        simp only [waiterStep, Prog.exec, hw, he]
        rw [if_neg hover]
        rfl
      rw [accesses, List.map_cons, run_cons, hstep]
      exact accesses_left k _ dest e (moveWaiter_waiters k n dest _ _ hw) he envs
        (Nat.le_of_succ_le_succ hlength)

/-- Once the search is over, three accesses are enough. -/
theorem accesses_return (w : Waiter) (hw : n.waiters[k]? = some w)
    (he : n.getRoutingEntry w.dest = some e) (hover : e.rreqSearch ≠ .searchSearching)
    (envs : List Env) (hlength : 3 ≤ envs.length) :
    (run step n (accesses k envs)).waiters[k]? =
      some { w with stage := .returned (w.verdict e) } := by
  rcases w with ⟨dest, stage⟩
  have houtcome : e.outcome = e.rreqSearch := if_neg hover
  cases stage with
  | waiting =>
      simp only [Waiter.verdict, houtcome]
      exact accesses_waiting k n dest e hw he hover envs hlength
  | left =>
      simp only [Waiter.verdict, houtcome]
      exact accesses_left k n dest e hw he envs (by omega)
  | decided outcome => exact accesses_decided k n dest e outcome hw he envs (by omega)
  | returned verdict =>
      rw [accesses_over k n dest verdict hw envs]
      exact hw

end Accesses

/-! ### Mutexes left locked -/

/-- A step of the node together with the mutexes that earlier steps have left locked.
    There is no state after a step that waits for one of them, or for one of its own. -/
def mutexStep (s : Option (Node × Finset (Fin 256))) (input : Input) :
    Option (Node × Finset (Fin 256)) :=
  s.bind fun (n, held) =>
    (input.handler.lockRun Op.apply n { held := held, wrong := false }).map fun l =>
      (step n input, l.held)

/-- With nothing locked the step waits for nothing and leaves nothing locked. -/
def Input.Passes (input : Input) (n : Node) : Prop :=
  input.handler.lockRun Op.apply n { held := ∅, wrong := false } =
    some { held := ∅, wrong := false }

theorem mutexStep_none (inputs : List Input) : run mutexStep none inputs = none := by
  induction inputs with
  | nil => rfl
  | cons input inputs ih => exact ih

/-- Where no step waits for ever the node is the one the steps make of it. -/
theorem mutexStep_node (n n' : Node) (held held' : Finset (Fin 256)) (inputs : List Input)
    (h : run mutexStep (some (n, held)) inputs = some (n', held')) : n' = run step n inputs := by
  induction inputs generalizing n held with
  | nil =>
      cases h
      rfl
  | cons input inputs ih =>
      rw [run_cons] at h
      cases hlocks : input.handler.lockRun Op.apply n { held := held, wrong := false } with
      | none =>
          simp only [mutexStep, Option.bind_some, hlocks, Option.map_none] at h
          rw [mutexStep_none] at h
          cases h
      | some l =>
          simp only [mutexStep, Option.bind_some, hlocks, Option.map_some] at h
          exact ih (step n input) l.held h

theorem mutexStep_passes (inputs : List Input) (h : ∀ input ∈ inputs, ∀ n, input.Passes n)
    (n : Node) : run mutexStep (some (n, ∅)) inputs = some (run step n inputs, ∅) := by
  induction inputs generalizing n with
  | nil => rfl
  | cons input inputs ih =>
      have hstep : mutexStep (some (n, ∅)) input = some (step n input, ∅) := by
        have hpasses : input.handler.lockRun Op.apply n _ = _ := h input List.mem_cons_self n
        simp only [mutexStep, Option.bind_some, hpasses, Option.map_some]
      rw [run_cons, run_cons, hstep]
      exact ih (fun input hmem => h input (List.mem_cons_of_mem _ hmem)) _

theorem locked_lockRun (ip : U32) (o : Op) (next : Handler) (n : Node) :
    (locked ip o next).lockRun Op.apply n { held := ∅, wrong := false } =
      next.lockRun Op.apply (o.apply n) { held := ∅, wrong := false } :=
  Prog.lockRun_section Op.apply (slotOf ip) o (fun _ _ => next) n

theorem retryStep_lockRun (env : Env) (t : SearchThread) (rreq : RreqHeader) (i : Nat) (n : Node) :
    (retryStep env t rreq i).lockRun Op.apply n { held := ∅, wrong := false } =
      some { held := ∅, wrong := false } := by
  unfold retryStep
  split
  · rfl
  · rw [locked_lockRun]
    rfl

theorem ringStep_lockRun (env : Env) (t : SearchThread) (rreq : RreqHeader) (ttl : U32) (n : Node) :
    (ringStep env t rreq ttl).lockRun Op.apply n { held := ∅, wrong := false } =
      some { held := ∅, wrong := false } := by
  unfold ringStep
  split
  · rfl
  · exact retryStep_lockRun env t rreq 0 n

theorem round_passes (env : Env) (id : Nat) (n : Node) :
    Input.Passes { env := env, event := .search id } n := by
  show (searchThreadStep env id).lockRun Op.apply n _ = _
  simp only [searchThreadStep, Prog.lockRun]
  cases n.threads.find? (fun t => t.id = id) with
  | none => rfl
  | some t =>
      simp only []
      cases t.stage with
      | starting =>
          simp only [Prog.lockRun, Finset.notMem_empty, if_false, Finset.mem_insert_self,
            not_true, decide_false, Bool.or_false, not_false_eq_true, Finset.erase_insert]
          -- It goes on with what it has read under the mutex.
          split
          · rfl
          · exact ringStep_lockRun env t _ _ _
      | ring rreq ttl => exact ringStep_lockRun env t rreq ttl n
      | retry rreq i => exact retryStep_lockRun env t rreq i n

theorem access_passes (env : Env) (k : Nat) (n : Node) :
    Input.Passes { env := env, event := .wait k } n := by
  show (waiterStep env k).lockRun Op.apply n _ = _
  simp only [waiterStep, Prog.lockRun]
  cases n.waiters[k]? with
  | none => rfl
  | some w =>
      simp only []
      cases n.getRoutingEntry w.dest with
      | none => rfl
      | some e =>
          cases w.stage with
          | waiting =>
              simp only []
              split
              · rfl
              · rfl
          | left =>
              simp only []
              rw [Prog.lockRun_section]
              rfl
          | decided outcome =>
              simp only []
              split
              · rw [locked_lockRun]
                rfl
              · rfl
          | returned verdict => rfl

/-! ### The call returns -/

theorem rounds_le (stage : SearchStage) : stage.rounds ≤ 14 := by
  cases stage with
  | starting | ring | retry =>
      simp only [SearchStage.rounds]
      omega

/-- Rounds of the search for the entry, by the thread that it names, as long as the
    search is on. -/
def RoutingEntry.searchRounds (e : RoutingEntry) (rounds : List Env) : List Input :=
  if e.rreqSearch = .searchSearching then OpenManet.searchRounds e.rreqMessageSender rounds
  else []

theorem search_then_accesses_pass (e : RoutingEntry) (rounds calls : List Env) (k : Nat) :
    ∀ input ∈ e.searchRounds rounds ++ accesses k calls, ∀ n, input.Passes n := by
  intro input hmem n
  rcases List.mem_append.mp hmem with hround | hcall
  · unfold RoutingEntry.searchRounds at hround
    split at hround
    · rcases List.mem_map.mp hround with ⟨env, -, rfl⟩
      exact round_passes env _ n
    · cases hround
  · rcases List.mem_map.mp hcall with ⟨env, -, rfl⟩
    exact access_passes env k n

/-- The thread the entry names ends the search, and the call reads what it is to read. -/
theorem search_then_accesses (n : Node) (hinv : SearchesRun n) (k : Nat) (w : Waiter)
    (e : RoutingEntry) (hw : n.waiters[k]? = some w) (he : n.getRoutingEntry w.dest = some e)
    (rounds calls : List Env) (hrounds : 14 ≤ rounds.length) (hcalls : 3 ≤ calls.length) :
    (run step n (e.searchRounds rounds ++ accesses k calls)).waiters[k]? =
      some { w with stage := .returned (w.verdict e) } := by
  unfold RoutingEntry.searchRounds
  by_cases hsearch : e.rreqSearch = .searchSearching
  · rcases hinv.live _ e he hsearch with ⟨t, ht, hid, hslot⟩
    -- Of the threads with this id the first one runs; it has the same destination.
    have hsome : (n.threadOf e.rreqMessageSender).isSome = true := by
      unfold Node.threadOf
      rw [List.find?_isSome]
      exact ⟨t, ht, decide_eq_true hid⟩
    rcases Option.isSome_iff_exists.mp hsome with ⟨u, hu⟩
    have huid : u.id = e.rreqMessageSender := by
      simpa only [decide_eq_true_eq] using List.find?_some hu
    have hudest : slotOf u.dest = slotOf w.dest := by
      rw [hinv.known.unique u (List.mem_of_find?_eq_some hu) t ht (huid.trans hid.symm)]
      exact hslot
    rcases search_ends e.rreqMessageSender 14 u n e hu (hudest ▸ he) (rounds_le _) rounds hrounds
      with ⟨hwaiters, env, hfailed⟩
    rw [hudest] at hfailed
    rw [if_pos hsearch, run_append]
    have hreturns := accesses_return k _ (e.searchFailed env) w (hwaiters ▸ hw) hfailed
      (by exact nofun) calls hcalls
    -- The outcome is the one foreseen.
    have hverdict : w.verdict (e.searchFailed env) = w.verdict e := by
      unfold Waiter.verdict
      have hfailed : (e.searchFailed env).outcome = e.outcome := by
        unfold RoutingEntry.outcome
        rw [if_pos hsearch]
        rfl
      rw [hfailed]
    rw [hverdict] at hreturns
    exact hreturns
  · rw [if_neg hsearch]
    exact accesses_return k n e w hw he hsearch calls hcalls

/-- In every state that a run from start-up reaches with no mutex left locked, a call
    whose entry is in the table can return, by at most fourteen rounds of the thread that
    the entry names and three accesses of its own, none of which waits for a mutex: with
    a dropped packet if it has not read the outcome and the search is on or has failed. -/
theorem call_returns (ip bcast : U32) (hello : Nat → Byte) (inputs : List Input) (n : Node)
    (hrun : run mutexStep (some (Node.boot ip bcast hello, ∅)) inputs = some (n, ∅)) (k : Nat)
    (w : Waiter) (e : RoutingEntry) (hw : n.waiters[k]? = some w)
    (he : n.getRoutingEntry w.dest = some e) (rounds calls : List Env)
    (hrounds : 14 ≤ rounds.length) (hcalls : 3 ≤ calls.length) :
    ∃ n', run mutexStep (some (n, ∅)) (e.searchRounds rounds ++ accesses k calls) =
        some (n', ∅) ∧
      n'.waiters[k]? = some { w with stage := .returned (w.verdict e) } := by
  have hinv := run_searchesRun ip bcast hello inputs
  rw [← mutexStep_node _ n ∅ ∅ inputs hrun] at hinv
  refine ⟨_, mutexStep_passes _ (search_then_accesses_pass e rounds calls k) n, ?_⟩
  exact search_then_accesses n hinv k w e hw he rounds calls hrounds hcalls

/-- A packet has just set off a search that nobody answers. -/
def searchBegun : List Input := [{ env := .clear, event := .outgoing 0x03000000 }]

theorem call_returns_unanswered :
    ∃ n', run mutexStep
        (some (run step (Node.boot 0x01000000 0xFFFFFFFF fun _ => 0) searchBegun, ∅))
        (searchRounds 1 (List.replicate 14 .clear) ++ accesses 0 (List.replicate 3 .clear)) =
          some (n', ∅) ∧
      n'.waiters[0]? = some ⟨0x03000000, .returned .packetDrop⟩ :=
  call_returns 0x01000000 0xFFFFFFFF (fun _ => 0) searchBegun _ rfl 0 ⟨0x03000000, .waiting⟩ _ rfl
    rfl (List.replicate 14 .clear) (List.replicate 3 .clear) (by rw [List.length_replicate])
    (by rw [List.length_replicate])

end OpenManet
