import OpenManet.Theory.Timers

/-!
# The Expanding Ring

Which requests a node originates. A search asks with a TTL of one, or of two more than
the hop count it knows, and goes on in steps of two as long as the TTL is at most seven;
then it asks three times with the diameter of the network, and gives up. All its requests
are about the same destination, with the same number of the originator. Whatever happens
in between, this is all a search can do: it can be cut short by a reply or by the removal
of its entry, and gives up only when it has been through the whole schedule.

Whichever searches run side by side, the requests of a node are numbered in the order
they are sent.

## Main definitions

* `rings`, `retries`, `expandingRing`: The TTLs of a search.
* `requestsBy`: The requests of the searches one picks, in order.
* `Asked`, `SearchStage.After`: Where a search stands and what it has asked.

## Theorems

* `search_round`: One round of a search.
* `requestsBy_rreqId`: The requests are numbered in order.
* `search_expands`: A search keeps to its schedule.
-/

namespace OpenManet

/-- The TTLs of the rings, from one on. -/
def rings (ttl : U32) : List (BitVec 11) :=
  if ttl ≤ ttlThreshold then ttl.setWidth 11 :: rings (ttl + ttlIncrement) else []
termination_by 8 - ttl.toNat
decreasing_by
  rename_i hle
  have hseven : ttl.toNat ≤ 7 := hle
  have hinc : ttlIncrement.toNat = 2 := by decide
  rw [BitVec.toNat_add, hinc]
  omega

/-- The TTLs of the retries, from one on. -/
def retries (i : Nat) : List (BitVec 11) :=
  List.replicate (rreqRetries + 1 - i) ((toU32 netDiameter).setWidth 11)

/-- The TTLs a search goes through when its rings start with this one. -/
def expandingRing (ttl : U32) : List (BitVec 11) := rings ttl ++ retries 0

theorem expandingRing_ring (ttl : U32) (h : ttl ≤ ttlThreshold) :
    expandingRing ttl = ttl.setWidth 11 :: expandingRing (ttl + ttlIncrement) := by
  unfold expandingRing
  rw [rings, if_pos h, List.cons_append]

theorem expandingRing_retry (ttl : U32) (h : ¬ ttl ≤ ttlThreshold) :
    expandingRing ttl = retries 0 := by
  unfold expandingRing
  rw [rings, if_neg h, List.nil_append]

theorem retries_succ (i : Nat) (h : i ≤ rreqRetries) :
    retries i = (toU32 netDiameter).setWidth 11 :: retries (i + 1) := by
  unfold retries
  rw [show rreqRetries + 1 - i = rreqRetries + 1 - (i + 1) + 1 by omega, List.replicate_succ]

theorem retries_over (i : Nat) (h : ¬ i ≤ rreqRetries) : retries i = [] := by
  unfold retries
  rw [show rreqRetries + 1 - i = 0 by omega, List.replicate_zero]

/-! ### What a node has asked -/

/-- The request a call broadcasts. -/
def ApiCall.request : ApiCall → Option RreqHeader
  | sendBroadcast (.rreq m) => some m
  | _ => none

/-- The requests a step broadcasts, if it is a round of one of the searches picked. -/
def roundRequests (pick : Nat → Bool) (n : Node) (input : Input) : List RreqHeader :=
  match input.event with
  | .search id => if pick id then (stepCalls n input).filterMap ApiCall.request else []
  | _ => []

/-- The requests of these searches in a run, in the order they are sent. -/
def requestsBy (pick : Nat → Bool) : Node → List Input → List RreqHeader
  | _, [] => []
  | n, input :: rest => roundRequests pick n input ++ requestsBy pick (step n input) rest

theorem requestsBy_append (pick : Nat → Bool) (n : Node) (past : List Input) (input : Input) :
    requestsBy pick n (past ++ [input]) =
      requestsBy pick n past ++ roundRequests pick (run step n past) input := by
  induction past generalizing n with
  | nil => exact List.append_nil _
  | cons a rest ih =>
      rw [List.cons_append, requestsBy, ih, requestsBy, run_cons, List.append_assoc]

/-- The request is that of a search for the entry, under a number of its own. -/
def RreqHeader.IsFor (ip seq : U32) (e : RoutingEntry) (m : RreqHeader) : Prop :=
  m = { searchRequest ip seq e with rreqId := m.rreqId, ttl := m.ttl }

/-- A search has sent these requests, and has these TTLs ahead of it. -/
def Asked (ip : U32) (rreq : RreqHeader) (asked : List RreqHeader) (ahead : List (BitVec 11)) :
    Prop :=
  ∃ e seq, rreq = { searchRequest ip seq e with rreqId := rreq.rreqId, ttl := rreq.ttl } ∧
    (∀ m ∈ asked, m.IsFor ip seq e) ∧
    asked.map RreqHeader.ttl ++ ahead = expandingRing (startTtl e)

/-- The requests are those of one search for an entry, and the first of its schedule. -/
def KeepsSchedule (ip : U32) (asked : List RreqHeader) : Prop :=
  asked = [] ∨ ∃ e seq, (∀ m ∈ asked, m.IsFor ip seq e) ∧
    asked.map RreqHeader.ttl <+: expandingRing (startTtl e)

/-- A search at this stage has sent these requests. -/
def SearchStage.After (ip : U32) (asked : List RreqHeader) : SearchStage → Prop
  | starting => asked = []
  | ring rreq ttl => Asked ip rreq asked (expandingRing ttl)
  | retry rreq i => Asked ip rreq asked (retries i)

theorem Asked.next {ip : U32} {rreq : RreqHeader} {asked : List RreqHeader} {ttl : BitVec 11}
    {ahead : List (BitVec 11)} (h : Asked ip rreq asked (ttl :: ahead)) (rreqId : U32) :
    Asked ip rreq (asked ++ [{ rreq with rreqId := rreqId, ttl := ttl }]) ahead := by
  rcases h with ⟨e, seq, hrreq, hfor, hall⟩
  refine ⟨e, seq, hrreq, fun m hm => ?_, ?_⟩
  · rcases List.mem_append.mp hm with hold | hnew
    · exact hfor m hold
    · rw [List.mem_singleton.mp hnew, RreqHeader.IsFor, hrreq]
  · rw [List.map_append, List.append_assoc]
    exact hall

/-- A search that is about to begin. -/
theorem asked_start (ip seq : U32) (e : RoutingEntry) :
    Asked ip (searchRequest ip seq e) [] (expandingRing (startTtl e)) :=
  ⟨e, seq, rfl, fun _ hm => absurd hm List.not_mem_nil, rfl⟩

/-! ### One round -/

/-- What a round of a search thread does to the node. -/
inductive SearchRound (env : Env) (n : Node) (t : SearchThread) (n' : Node) : Prop where
  /-- It sends the next request of its schedule. -/
  | asks (seq : U32) (rreq : RreqHeader) (ttl : BitVec 11) (stage : SearchStage)
      (hnext : n' = (Op.sendRreq t.id rreq ttl stage).apply { n with sequenceNum := seq })
      (hafter : ∀ asked, t.stage.After n.ipAddress asked → stage.After n.ipAddress
        (asked ++ [{ rreq with rreqId := n.rreqId + 1, ttl := ttl }]))
  /-- The schedule is over, and the search has failed. -/
  | fails (hnext : n' = (Op.searchFailed env t.id t.dest).apply n)
      (hover : ∀ asked, t.stage.After n.ipAddress asked → ∃ e seq,
        (∀ m ∈ asked, m.IsFor n.ipAddress seq e) ∧
          asked.map RreqHeader.ttl = expandingRing (startTtl e))
  /-- It finds no entry. -/
  | idle (seq : U32) (hnext : n' = { n with sequenceNum := seq })

section Rounds

variable (env : Env) (t : SearchThread) (n : Node)

theorem retryStep_round (rreq : RreqHeader) (i : Nat)
    (hstage : ∀ asked, t.stage.After n.ipAddress asked → Asked n.ipAddress rreq asked (retries i)) :
    SearchRound env n t ((retryStep env t rreq i).exec Op.apply n).1 := by
  unfold retryStep
  by_cases hi : i ≤ rreqRetries
  · rw [if_pos hi]
    refine .asks n.sequenceNum rreq _ _ rfl (fun asked h => ?_)
    have hasked := hstage asked h
    rw [retries_succ i hi] at hasked
    exact hasked.next _
  · rw [if_neg hi]
    refine .fails rfl (fun asked h => ?_)
    rcases hstage asked h with ⟨e, seq, -, hfor, hall⟩
    rw [retries_over i hi, List.append_nil] at hall
    exact ⟨e, seq, hfor, hall⟩

theorem ringStep_round (seq : U32) (rreq : RreqHeader) (ttl : U32)
    (hstage : ∀ asked, t.stage.After n.ipAddress asked →
      Asked n.ipAddress rreq asked (expandingRing ttl)) :
    SearchRound env n t
      ((ringStep env t rreq ttl).exec Op.apply { n with sequenceNum := seq }).1 := by
  unfold ringStep
  by_cases httl : ttl ≤ ttlThreshold
  · rw [if_pos httl]
    refine .asks seq rreq _ _ rfl (fun asked h => ?_)
    have hasked := hstage asked h
    rw [expandingRing_ring ttl httl] at hasked
    exact hasked.next _
  · -- The first retry follows the last ring in the same round.
    have hfirst : (0 : Nat) ≤ rreqRetries := Nat.zero_le _
    rw [if_neg httl, retryStep, if_pos hfirst]
    refine .asks seq rreq _ _ rfl (fun asked h => ?_)
    have hasked := hstage asked h
    rw [expandingRing_retry ttl httl, retries_succ 0 hfirst] at hasked
    exact hasked.next _

/-- A round of a search sends the next request, or ends it. -/
theorem search_round (id : Nat) (hfind : n.threadOf id = some t) :
    SearchRound env n t (step n { env := env, event := .search id }) := by
  have hthread : n.threads.find? (fun t => decide (t.id = id)) = some t := hfind
  show SearchRound env n t ((searchThreadStep env id).exec Op.apply n).1
  simp only [searchThreadStep, Prog.exec, hthread]
  cases hstage : t.stage with
  | starting =>
      simp only [Prog.exec]
      cases he : (Op.incrementSequenceNum.apply n).getRoutingEntry t.dest with
      | none => exact .idle _ rfl
      | some e =>
          refine ringStep_round env t n _ _ _ (fun asked h => ?_)
          rw [hstage] at h
          rw [show asked = [] from h]
          exact asked_start _ _ e
  | ring rreq ttl =>
      refine ringStep_round env t n n.sequenceNum rreq ttl (fun asked h => ?_)
      rw [hstage] at h
      exact h
  | retry rreq i =>
      refine retryStep_round env t n rreq i (fun asked h => ?_)
      rw [hstage] at h
      exact h

/-- A search that is over does nothing. -/
theorem search_over (id : Nat) (hfind : n.threadOf id = none) :
    step n { env := env, event := .search id } = n := by
  have hthread : n.threads.find? (fun t => decide (t.id = id)) = none := hfind
  show ((searchThreadStep env id).exec Op.apply n).1 = n
  simp only [searchThreadStep, Prog.exec, hthread]

end Rounds

/-- What a round sends: the next request of the thread, or nothing, and then no thread
    moves. -/
inductive RoundSends (n : Node) (id : Nat) (sent : List RreqHeader) (n' : Node) : Prop where
  | next (t : SearchThread) (seq : U32) (rreq : RreqHeader) (ttl : BitVec 11) (stage : SearchStage)
      (hfind : n.threadOf id = some t)
      (hnext : n' = (Op.sendRreq id rreq ttl stage).apply { n with sequenceNum := seq })
      (hafter : ∀ asked, t.stage.After n.ipAddress asked → stage.After n.ipAddress
        (asked ++ [{ rreq with rreqId := n.rreqId + 1, ttl := ttl }]))
      (hsent : sent = [{ rreq with rreqId := n.rreqId + 1, ttl := ttl }])
  | nothing (hsent : sent = []) (hthreads : ∀ t ∈ n'.threads, t ∈ n.threads)
      (hcounters : n'.rreqId = n.rreqId ∧ n'.nextThread = n.nextThread)

theorem round_sends (env : Env) (n : Node) (id : Nat) :
    RoundSends n id ((stepCalls n { env := env, event := .search id }).filterMap ApiCall.request)
      (step n { env := env, event := .search id }) := by
  -- The record tells what is sent.
  have hquiet : (step n { env := env, event := .search id }).log = n.log →
      (stepCalls n { env := env, event := .search id }).filterMap ApiCall.request = [] := by
    intro hlog
    rw [stepCalls_of_append n _ [] hlog]
    rfl
  cases hfind : n.threadOf id with
  | none =>
      have hstep := search_over env n id hfind
      rw [hstep] at hquiet ⊢
      exact .nothing (hquiet rfl) (fun _ ht => ht) ⟨rfl, rfl⟩
  | some t =>
      have hid : t.id = id := by simpa only [decide_eq_true_eq] using List.find?_some hfind
      cases search_round env t n id hfind with
      | asks seq rreq ttl stage hnext hafter =>
          rw [hid] at hnext
          refine .next t seq rreq ttl stage hfind hnext hafter ?_
          have hlog : (step n { env := env, event := .search id }).log =
              [.sendBroadcast (.rreq { rreq with rreqId := n.rreqId + 1, ttl := ttl })] ++
                n.log := by
            rw [hnext]
            rfl
          rw [stepCalls_of_append n _ _ hlog]
          rfl
      | fails hnext =>
          rw [hnext] at hquiet ⊢
          exact .nothing (hquiet rfl) (fun u hu => (pthreadCancel_threads t.id _ u hu).1)
            ⟨rfl, rfl⟩
      | idle seq hnext =>
          rw [hnext] at hquiet ⊢
          exact .nothing (hquiet rfl) (fun _ ht => ht) ⟨rfl, rfl⟩

/-! ### The numbers of the requests -/

section Numbers

theorem apply_rreqId (n : Node) (o : Op)
    (h : ∀ id rreq ttl stage, o ≠ .sendRreq id rreq ttl stage) :
    (o.apply n).rreqId = n.rreqId := by
  by_cases htable : o.OnTable
  · exact apply_keeps Node.rreqId (fun _ _ _ _ _ => rfl) n o htable
  · cases o with
    | startSearch | beginWait | moveWaiter | moveHello | incrementSequenceNum
    | writeSequenceNum => rfl
    | sendRreq => exact absurd rfl (h _ _ _ _)
    | _ => exact absurd trivial htable

/-- Only a round of a search takes a number. -/
theorem step_rreqId (n : Node) (input : Input) (hevent : ∀ id, input.event ≠ .search id) :
    (step n input).rreqId = n.rreqId := by
  refine Prog.exec_invariant Op.apply (Op.Guard input.event) (fun n' => n'.rreqId = n.rreqId)
    (fun o n' hn hguard => (apply_rreqId n' o ?_).trans hn) input.handler n rfl
    (handler_guard n input)
  rintro id rreq ttl stage rfl
  exact hevent id hguard.1

/-- Nothing else originates requests. -/
theorem roundRequests_of_ne (pick : Nat → Bool) (n : Node) (input : Input)
    (hevent : ∀ id, input.event ≠ .search id) : roundRequests pick n input = [] := by
  unfold roundRequests
  split
  · exact absurd ‹_› (hevent _)
  · rfl

/-- A step originates the request with the next number, or none. -/
theorem roundRequests_rreqId (n : Node) (input : Input) :
    (roundRequests (fun _ => true) n input).map RreqHeader.rreqId =
        (List.range (roundRequests (fun _ => true) n input).length).map
          (fun i => n.rreqId + BitVec.ofNat 32 (i + 1)) ∧
      (step n input).rreqId =
        n.rreqId + BitVec.ofNat 32 (roundRequests (fun _ => true) n input).length := by
  rcases input with ⟨env, event⟩
  by_cases hevent : ∃ id, event = .search id
  · rcases hevent with ⟨id, rfl⟩
    show List.map _ (List.filterMap ApiCall.request _) = _ ∧ _
    unfold roundRequests
    cases round_sends env n id with
    | next t seq rreq ttl stage hfind hnext hafter hsent =>
        simp only [if_true, hsent, hnext]
        exact ⟨rfl, rfl⟩
    | nothing hsent hthreads hcounters =>
        simp only [if_true, hsent, hcounters.1]
        exact ⟨rfl, (BitVec.add_zero _).symm⟩
  · have hne : ∀ id, event ≠ .search id := fun id heq => hevent ⟨id, heq⟩
    rw [roundRequests_of_ne _ _ _ hne, step_rreqId _ _ hne]
    exact ⟨rfl, (BitVec.add_zero _).symm⟩

/-- All requests a node originates are numbered in order. -/
theorem requestsBy_rreqId (n : Node) (inputs : List Input) :
    (requestsBy (fun _ => true) n inputs).map RreqHeader.rreqId =
        (List.range (requestsBy (fun _ => true) n inputs).length).map
          (fun i => n.rreqId + BitVec.ofNat 32 (i + 1)) ∧
      (run step n inputs).rreqId =
        n.rreqId + BitVec.ofNat 32 (requestsBy (fun _ => true) n inputs).length := by
  induction inputs generalizing n with
  | nil => exact ⟨rfl, (BitVec.add_zero _).symm⟩
  | cons input rest ih =>
      rcases roundRequests_rreqId n input with ⟨hnow, hcount⟩
      rcases ih (step n input) with ⟨hlater, hend⟩
      rw [requestsBy, List.map_append, List.length_append, List.range_add, List.map_append, hnow,
        hlater, run_cons, hend, hcount, List.map_map]
      refine ⟨congrArg _ (List.map_congr_left fun i _ => ?_), ?_⟩
      · simp only [Function.comp, BitVec.ofNat_add, BitVec.add_assoc]
      · rw [BitVec.ofNat_add, BitVec.add_assoc]

/-- What some searches originate is part of what all do. -/
theorem requestsBy_sublist (pick : Nat → Bool) (n : Node) (inputs : List Input) :
    (requestsBy pick n inputs).Sublist (requestsBy (fun _ => true) n inputs) := by
  induction inputs generalizing n with
  | nil => exact List.Sublist.slnil
  | cons input rest ih =>
      refine List.Sublist.append ?_ (ih _)
      unfold roundRequests
      split
      · split
        · exact List.Sublist.refl _
        · exact List.nil_sublist _
      · exact List.Sublist.refl _

end Numbers

/-! ### The schedule -/

/-- What a search has asked so far, and where its thread stands. -/
structure SearchHistory (id : Nat) (asked : List RreqHeader) (n : Node) : Prop where
  unborn : n.nextThread ≤ id → asked = []
  stage : ∀ t ∈ n.threads, t.id = id → t.stage.After n.ipAddress asked
  schedule : KeepsSchedule n.ipAddress asked

theorem SearchStage.After.keepsSchedule {ip : U32} {asked : List RreqHeader} {stage : SearchStage}
    (h : stage.After ip asked) : KeepsSchedule ip asked := by
  cases stage with
  | starting => exact Or.inl h
  | ring rreq ttl | retry rreq i =>
      rcases h with ⟨e, seq, -, hfor, hall⟩
      exact Or.inr ⟨e, seq, hfor, _, hall⟩

/-- What another thread or a message does leaves a search where it is, or ends it. -/
theorem searchHistory_apply (event : Event) (id : Nat) (hevent : event ≠ .search id)
    (asked : List RreqHeader) (n : Node) (o : Op) (h : SearchHistory id asked n)
    (hguard : o.Guard event n) : SearchHistory id asked (o.apply n) where
  unborn hid := h.unborn (Nat.le_trans (nextThread_le n o) hid)
  stage t ht hid := by
    rw [apply_ipAddress]
    rcases apply_threads n o t ht with hold | ⟨dest, -, rfl⟩ | ⟨t₀, -, rreq, ttl, rfl, -⟩
    · exact h.stage t hold hid
    · exact h.unborn (Nat.le_of_eq hid)
    · exact absurd (hid ▸ hguard.1) hevent
  schedule := by
    rw [apply_ipAddress]
    exact h.schedule

theorem searchHistory_step (id : Nat) (asked : List RreqHeader) (n : Node) (input : Input)
    (h : SearchHistory id asked n) (hknown : ThreadsKnown n) :
    SearchHistory id (asked ++ roundRequests (fun i => i = id) n input) (step n input) := by
  rcases input with ⟨env, event⟩
  by_cases hevent : event = .search id
  · subst hevent
    have hsends := round_sends env n id
    have hround : roundRequests (fun i => i = id) n { env := env, event := .search id } =
        (stepCalls n { env := env, event := .search id }).filterMap ApiCall.request :=
      if_pos (decide_eq_true rfl)
    rw [hround]
    have haddress := step_ipAddress n { env := env, event := .search id }
    cases hsends with
    | next t seq rreq ttl stage hfind hnext hafter hsent =>
        have ht : t ∈ n.threads := List.mem_of_find?_eq_some hfind
        have hid : t.id = id := by simpa only [decide_eq_true_eq] using List.find?_some hfind
        have hstage := hafter asked (h.stage t ht hid)
        rw [hsent]
        refine ⟨fun hborn => ?_, fun u hu huid => ?_, haddress ▸ hstage.keepsSchedule⟩
        · rw [hnext] at hborn
          have hlt := (hknown.ids t ht).2
          exact absurd (Nat.lt_of_lt_of_le hlt hborn) (by omega)
        · rw [haddress]
          rw [hnext] at hu
          rcases List.mem_map.mp hu with ⟨u₀, -, rfl⟩
          by_cases hsame : u₀.id = id
          · rw [if_pos hsame]
            exact hstage
          · rw [if_neg hsame] at huid
            exact absurd huid hsame
    | nothing hsent hthreads hcounters =>
        rw [hsent, List.append_nil]
        refine ⟨fun hborn => h.unborn (hcounters.2 ▸ hborn), fun u hu huid => ?_,
          haddress ▸ h.schedule⟩
        rw [haddress]
        exact h.stage u (hthreads u hu) huid
  · have hquiet : roundRequests (fun i => i = id) n { env := env, event := event } = [] := by
      unfold roundRequests
      cases event with
      | search id' =>
          have hne : ¬ decide (id' = id) = true := fun heq =>
            hevent (congrArg Event.search (decide_eq_true_eq.mp heq))
          exact if_neg hne
      | _ => rfl
    rw [hquiet, List.append_nil]
    exact Prog.exec_invariant Op.apply (Op.Guard event) (SearchHistory id asked)
      (fun o n hn hguard => searchHistory_apply event id hevent asked n o hn hguard) _ n h
      (handler_guard n { env := env, event := event })

theorem run_threadsKnown (ip bcast : U32) (hello : Nat → Byte) (inputs : List Input) :
    ThreadsKnown (run step (Node.boot ip bcast hello) inputs) :=
  node_invariant_always ThreadsKnown (fun o n hn => threadsKnown_apply n o hn) _ inputs
    (boot_threadsKnown ip bcast hello)

theorem run_searchHistory (ip bcast : U32) (hello : Nat → Byte) (id : Nat) (inputs : List Input) :
    SearchHistory id (requestsBy (fun i => i = id) (Node.boot ip bcast hello) inputs)
      (run step (Node.boot ip bcast hello) inputs) := by
  induction inputs using List.reverseRecOn with
  | nil => exact ⟨fun _ => rfl, fun _ ht => absurd ht List.not_mem_nil, Or.inl rfl⟩
  | append_singleton past input ih =>
      rw [requestsBy_append, run_append]
      exact searchHistory_step id _ _ input ih (run_threadsKnown ip bcast hello past)

/-- The requests of a search keep to its schedule. -/
theorem run_keepsSchedule (ip bcast : U32) (hello : Nat → Byte) (id : Nat) (inputs : List Input) :
    KeepsSchedule ip (requestsBy (fun i => i = id) (Node.boot ip bcast hello) inputs) := by
  have haddress : (run step (Node.boot ip bcast hello) inputs).ipAddress = ip :=
    node_invariant_always (fun n => n.ipAddress = ip)
      (fun o n hn => (apply_ipAddress n o).trans hn) _ inputs rfl
  have hschedule := (run_searchHistory ip bcast hello id inputs).schedule
  rwa [haddress] at hschedule

/-- In every run from start-up the requests of a search are the first of its schedule,
    all for the same destination with the same number of the originator; a search whose
    own round ends it has been through the whole schedule; and the numbers of its requests
    are among those the node gives out in order. -/
theorem search_expands (ip bcast : U32) (hello : Nat → Byte) (inputs : List Input) (id : Nat) :
    let n := run step (Node.boot ip bcast hello) inputs
    let asked := requestsBy (fun i => i = id) (Node.boot ip bcast hello) inputs
    KeepsSchedule ip asked ∧
      (∀ env, n.threadOf id ≠ none →
        (step n { env := env, event := .search id }).threadOf id = none →
        ∃ e seq, (∀ m ∈ asked, m.IsFor ip seq e) ∧
          asked.map RreqHeader.ttl = expandingRing (startTtl e)) ∧
      (asked.map RreqHeader.rreqId).Sublist
        ((List.range (requestsBy (fun _ => true) (Node.boot ip bcast hello) inputs).length).map
          fun i => BitVec.ofNat 32 (i + 1)) := by
  intro n asked
  have hhistory : SearchHistory id asked n := run_searchHistory ip bcast hello id inputs
  have haddress : n.ipAddress = ip := node_invariant_always (fun n => n.ipAddress = ip)
    (fun o n hn => (apply_ipAddress n o).trans hn) _ inputs rfl
  refine ⟨run_keepsSchedule ip bcast hello id inputs, fun env hlive hover => ?_, ?_⟩
  · rcases Option.ne_none_iff_exists'.mp hlive with ⟨t, hfind⟩
    have ht : t ∈ n.threads := List.mem_of_find?_eq_some hfind
    have hid : t.id = id := by simpa only [decide_eq_true_eq] using List.find?_some hfind
    -- A round that sends leaves its thread there.
    have hstays : ∀ n' : Node, (∃ u ∈ n'.threads, u.id = id) → n'.threadOf id ≠ none := by
      rintro n' ⟨u, hu, huid⟩ hnone
      exact absurd (decide_eq_true huid) (List.find?_eq_none.mp hnone u hu)
    cases search_round env t n id hfind with
    | asks seq rreq ttl stage hnext =>
        refine absurd hover (hstays _ ?_)
        rw [hnext]
        exact ⟨{ t with stage := stage }, List.mem_map.mpr ⟨t, ht, if_pos rfl⟩, hid⟩
    | fails hnext hend =>
        rw [← haddress]
        exact hend asked (hhistory.stage t ht hid)
    | idle seq hnext =>
        refine absurd hover (hstays _ ?_)
        rw [hnext]
        exact ⟨t, ht, hid⟩
  · have hall := (requestsBy_rreqId (Node.boot ip bcast hello) inputs).1
    have hsub := (requestsBy_sublist (fun i => i = id) (Node.boot ip bcast hello) inputs).map
      RreqHeader.rreqId
    rw [hall] at hsub
    have hzero : (Node.boot ip bcast hello).rreqId = 0 := rfl
    simpa only [hzero, zero_add] using hsub

end OpenManet
