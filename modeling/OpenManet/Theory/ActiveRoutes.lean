import OpenManet.Library.Counting
import OpenManet.Theory.Guards

/-!
# The Count of Active Routes

`active_routes` is meant to be the number of valid entries marked with
`active_route`, and the hello thread goes by it. The mark stays with an entry
when the entry becomes invalid, and the seven places that move the count do so
under different tests, so the two drift apart where a test and the mark do not
match: a marked entry is made valid again without being counted, an invalid entry
is marked and counted, a marked entry is taken down where the count stays
because its number is not valid or it has no precursors, or one is taken down a
second time. `CounterOk` excludes these and nothing else.

The hello thread tests the count, sleeps for a second and sends without testing it again.
So a hello still goes out when the last such entry has been taken down in that second,
which `LastStays` excludes.

## Main definitions

* `RoutingEntry.counts`: The entry is valid and marked.
* `CounterExact`: The count is the number of such entries.
* `CounterOk`: The test of a section matches the mark.
* `passesTest`, `sendsHello`: The two steps of the hello thread.
* `LastStays`: An entry is left that counts while the thread sleeps.

## Theorems

* `apply_activeRoutes`: The count after an operation.
* `apply_counter_exact`: A section under the condition keeps the count exact.
* `apply_awake`: The thread sleeps only while an entry counts.
* `counter_exact`: In a run under the condition it is exact in every state, and
  the hello thread goes by whether such an entry exists.
* `not_counter_exact_revivedRoute`: Without it the two can differ.
-/

namespace OpenManet

/-- The entry is valid and marked as an active route. -/
def RoutingEntry.counts (e : RoutingEntry) : Bool := e.status = .routeValid && e.activeRoute = 1

/-- The slot holds an entry that counts. -/
def Node.countsAt (n : Node) (i : Fin 256) : Bool := (n.routes.slots i).any RoutingEntry.counts

/-- The number of valid entries marked as active routes. -/
def activeCount (n : Node) : Nat := countTrue n.countsAt

/-- The count is exact and the marks are as they are meant to be. -/
structure CounterExact (n : Node) : Prop where
  count : n.activeRoutes.toNat = activeCount n
  marks : n.Entries fun e => e.activeRoute = 0 ∨ e.activeRoute = 1

/-- The test under which a section moves the count matches the entry's mark. -/
def CounterOk : Op → Node → Prop
  | .previousHop _ ip _ _, n =>
    ∀ e, n.getRoutingEntry ip = some e → e.status = .routeInvalid → e.activeRoute = 0
  | .reverseRoute _ _ m _, n =>
    ∀ e, n.getRoutingEntry m.srcIp = some e → e.status = .routeInvalid → e.activeRoute = 0
  | .forwardRoute _ _ m _, n =>
    ∀ e, n.getRoutingEntry m.destIp = some e → e.status = .routeInvalid → e.activeRoute = 0
  | .activate ip, n =>
    ∀ e, n.getRoutingEntry ip = some e → e.activeRoute = 0 → e.status = .routeValid
  | .linkBreak _ ip, n =>
    ∀ e, n.getRoutingEntry ip = some e → e.activeRoute = 1 →
      if e.status = .routeValid then e.precursorList ≠ []
      else e.precursorList = [] ∨ n.activeRoutes = 0
  | .expireRoute _ ip, n =>
    ∀ e, n.getRoutingEntry ip = some e → e.activeRoute = 1 → e.seqValid = .seqValid
  | _, _ => True

instance (o : Op) (n : Node) : Decidable (CounterOk o n) := by
  cases o <;> unfold CounterOk <;> infer_instance

/-! ### The count after an operation -/

/-- The count after `if(active_routes > 0) active_routes -= active_route`. -/
def released (activeRoutes activeRoute : U32) : U32 :=
  if activeRoutes > 0 then activeRoutes - activeRoute else activeRoutes

/-- How a section moves the count when it finds this entry. -/
def Op.counter (o : Op) (activeRoutes : U32) (e : RoutingEntry) : U32 :=
  match o with
  | activate _ => if e.activeRoute = 0 then activeRoutes + 1 else activeRoutes
  | breakRoute _ _ _ => released activeRoutes e.activeRoute
  | linkBreak _ _ =>
    if e.precursorList ≠ [] then released activeRoutes e.activeRoute else activeRoutes
  | outgoingBreak _ _ | expireRoute _ _ =>
    if e.seqValid = .seqValid then released activeRoutes e.activeRoute else activeRoutes
  | _ => activeRoutes

theorem releaseRoute_activeRoutes (a : U32) (n : Node) :
    (n.releaseRoute a).activeRoutes = released n.activeRoutes a := by
  unfold Node.releaseRoute released
  split <;> rfl

theorem onEntry_activeRoutes (ip : U32) (f : RoutingEntry → RoutingEntry)
    (rest : RoutingEntry → Node → Node) (counter : RoutingEntry → U32 → U32)
    (hrest : ∀ e n, (rest e n).activeRoutes = counter e n.activeRoutes) (n : Node) :
    (Op.onEntry ip f rest n).activeRoutes =
      match n.getRoutingEntry ip with
      | none => n.activeRoutes
      | some e => counter e n.activeRoutes := by
  unfold Op.onEntry
  cases n.getRoutingEntry ip with
  | none => rfl
  | some e => exact hrest e _

/-- An operation that writes to an entry moves the count by what it finds. -/
theorem apply_activeRoutes (n : Node) (o : Op) (ip : U32) (f : RoutingEntry → RoutingEntry)
    (heff : o.effect n = .update ip f) (e : RoutingEntry) (he : n.getRoutingEntry ip = some e) :
    (o.apply n).activeRoutes = o.counter n.activeRoutes e := by
  cases o with
  | previousHop | reverseRoute =>
      cases heff
      simp only [Op.apply]
      rw [onEntry_activeRoutes _ _ _ (fun _ a => a), he]
      · rfl
      · exact fun _ _ => rfl
  | forwardRoute env s m new =>
      cases heff
      simp only [Op.apply]
      rw [onEntry_activeRoutes _ _ _ (fun _ a => a), he]
      · rfl
      · intro e n
        unfold Op.addForwardRoute
        cases new || fresherForward m e <;> rfl
  | searchFound =>
      cases heff
      simp only [Op.apply]
      rw [onEntry_activeRoutes _ _ _ (fun _ a => a), he]
      · rfl
      · intro e n
        split <;> rfl
  | activate =>
      cases heff
      simp only [Op.apply]
      rw [onEntry_activeRoutes _ _ _ (fun e a => if e.activeRoute = 0 then a + 1 else a), he]
      · rfl
      · intro e n
        split <;> rfl
  | breakRoute =>
      cases heff
      simp only [Op.apply]
      rw [onEntry_activeRoutes _ _ _ (fun e a => released a e.activeRoute), he]
      · rfl
      · exact fun e n => releaseRoute_activeRoutes _ _
  | linkBreak =>
      cases heff
      simp only [Op.apply]
      -- Without precursors the entry keeps its mark and the counter its value.
      rw [onEntry_activeRoutes _ _ _ (fun e a => if e.precursorList ≠ [] then
        released a e.activeRoute else a), he]
      · rfl
      · intro e n
        split
        · exact releaseRoute_activeRoutes _ _
        · rfl
  | outgoingBreak | expireRoute =>
      cases heff
      simp only [Op.apply]
      -- Under an invalid sequence number the route is not released.
      rw [onEntry_activeRoutes _ _ _ (fun e a => if e.seqValid = .seqValid then
        released a e.activeRoute else a), he]
      · rfl
      · intro e n
        split
        · exact releaseRoute_activeRoutes _ _
        · rfl
  | hello | write | startSearch | searchFailed =>
      cases heff
      rfl
  | create | removeEntry | beginWait | moveWaiter | moveHello | incrementSequenceNum
  | writeSequenceNum | sendRreq | sendUnicast | sendBroadcast => cases heff

/-- The other operations do not move the count. -/
theorem apply_activeRoutes_of_none (n : Node) (o : Op)
    (h : ∀ ip f e, o.effect n = .update ip f → n.getRoutingEntry ip ≠ some e) :
    (o.apply n).activeRoutes = n.activeRoutes := by
  have hnone : ∀ ip f, o.effect n = .update ip f → n.getRoutingEntry ip = none := fun ip f heff =>
    Option.eq_none_iff_forall_ne_some.mpr (fun e => h ip f e heff)
  -- `Op.onEntry` changes nothing when no entry is found.
  have hentry : ∀ ip f (rest : RoutingEntry → Node → Node), n.getRoutingEntry ip = none →
      (Op.onEntry ip f rest n).activeRoutes = n.activeRoutes := by
    intro ip f rest hip
    unfold Op.onEntry
    rw [hip]
  cases o with
  | create env ip s v h c t =>
      simp only [Op.apply]
      rw [Node.createOrGet_frame]
  | previousHop | reverseRoute | forwardRoute | searchFound | activate | breakRoute | linkBreak
  | outgoingBreak | expireRoute => exact hentry _ _ _ (hnone _ _ rfl)
  | removeEntry ip =>
      simp only [Op.apply]
      split
      · rfl
      · split <;> rfl
  | hello | write | startSearch | beginWait | moveWaiter | moveHello | incrementSequenceNum
  | writeSequenceNum | sendRreq | searchFailed | sendUnicast | sendBroadcast => rfl

/-! ### One section -/

/-- A slot that counts after an operation as it did before leaves the number as it
    is; one that changes moves it by one. -/
theorem activeCount_update (n : Node) (o : Op) (ip : U32) (f : RoutingEntry → RoutingEntry)
    (heff : o.effect n = .update ip f) (e : RoutingEntry) (he : n.getRoutingEntry ip = some e) :
    activeCount (o.apply n) + e.counts.toNat = activeCount n + (f e).counts.toNat :=
  countEntries_update RoutingEntry.counts n o ip f heff e he

/-- A table whose slots count as before has the same number. -/
theorem activeCount_of_same (n n' : Node) (h : ∀ i, n'.countsAt i = n.countsAt i) :
    activeCount n' = activeCount n :=
  congrArg countTrue (funext h)

theorem activeCount_le (n : Node) : activeCount n ≤ 256 := by
  have hle := countTrue_le_card n.countsAt
  rw [Fintype.card_fin] at hle
  exact hle

/-- Marking a valid entry, or finding it marked, moves both sides by as much. -/
theorem activate_counter (a : U32) (e : RoutingEntry) (c c' : Nat) (ha : a.toNat = c)
    (hc : c ≤ 256) (hmark : e.activeRoute = 0 ∨ e.activeRoute = 1)
    (hvalid : e.activeRoute = 0 → e.status = .routeValid)
    (hcount : c' + e.counts.toNat = c + e.activate.counts.toNat) :
    (if e.activeRoute = 0 then a + 1 else a).toNat = c' := by
  have hone : (1 : U32).toNat = 1 := rfl
  rcases hmark with h0 | h1
  · have hmarked : e.activate = { e with activeRoute := 1 } := if_pos h0
    -- The mark is set now and the route is valid, so the entry begins to count.
    have hbefore : e.counts.toNat = 0 := by
      rw [RoutingEntry.counts, h0, Bool.and_comm]
      rfl
    have hafter : e.activate.counts.toNat = 1 := by
      rw [hmarked, RoutingEntry.counts, hvalid h0]
      rfl
    rw [if_pos h0, BitVec.toNat_add, ha, hone]
    omega
  · -- It was marked before: neither the counter nor the count moves.
    have hne : ¬ e.activeRoute = 0 := by
      rw [h1]
      decide
    have hsame : e.activate = e := if_neg hne
    rw [hsame] at hcount
    rw [if_neg hne]
    omega

/-- Taking an entry down and releasing its mark move both sides by as much, when
    the entry counted or has no mark. -/
theorem released_counter (a : U32) (e e' : RoutingEntry) (c c' : Nat) (ha : a.toNat = c)
    (hmark : e.activeRoute = 0 ∨ e.activeRoute = 1)
    (hvalid : e.activeRoute = 1 → e.status = .routeValid)
    (hdown : e'.status = .routeInvalid) (hcount : c' + e.counts.toNat = c + e'.counts.toNat) :
    (released a e.activeRoute).toNat = c' := by
  have hdown' : e'.counts.toNat = 0 := by rw [RoutingEntry.counts, hdown]; rfl
  rw [hdown'] at hcount
  rcases hmark with h0 | h1
  · -- Without the mark the entry did not count, and the counter is left alone.
    have hno : e.counts.toNat = 0 := by
      rw [RoutingEntry.counts, h0, Bool.and_comm]
      rfl
    rw [hno] at hcount
    rw [h0, released, sub_zero, ite_self]
    omega
  · have hyes : e.counts.toNat = 1 := by
      rw [RoutingEntry.counts, hvalid h1, h1]
      rfl
    rw [hyes] at hcount
    have hone : (1 : U32).toNat = 1 := rfl
    have hzero : (0 : U32).toNat = 0 := rfl
    -- The entry counts, so the counter is above zero and taking one off cannot wrap.
    have hpos : a > 0 := by
      rw [gt_iff_lt, BitVec.lt_def]
      omega
    have hle : (1 : U32) ≤ a := by
      rw [BitVec.le_def]
      omega
    rw [h1, released, if_pos hpos, BitVec.toNat_sub_of_le hle]
    omega

/-- Taking an entry down without touching the count, when it does not count. -/
theorem kept_counter (e e' : RoutingEntry) (c c' : Nat)
    (hno : e.activeRoute = 1 → e.status = .routeInvalid)
    (hdown : e'.status = .routeInvalid) (hcount : c' + e.counts.toNat = c + e'.counts.toNat) :
    c' = c := by
  have hdown' : e'.counts.toNat = 0 := by rw [RoutingEntry.counts, hdown]; rfl
  have hcounts : e.counts.toNat = 0 := by
    unfold RoutingEntry.counts
    by_cases h1 : e.activeRoute = 1
    · rw [hno h1]
      rfl
    · rw [decide_eq_false h1, Bool.and_false]
      rfl
  rw [hdown', hcounts] at hcount
  exact hcount

/-- Reviving an entry without a mark changes nothing that counts. -/
theorem revived_counter (e e' : RoutingEntry) (c c' : Nat)
    (hmark : e'.activeRoute = e.activeRoute) (hvalid : e'.status = .routeValid)
    (hok : e.status = .routeInvalid → e.activeRoute = 0)
    (hcount : c' + e.counts.toNat = c + e'.counts.toNat) : c' = c := by
  have hsame : e'.counts = e.counts := by
    unfold RoutingEntry.counts
    rw [hmark, hvalid]
    cases hs : e.status with
    | routeValid => rfl
    | routeInvalid =>
        rw [hok hs]
        rfl
  rw [hsame] at hcount
  omega

/-- The marks after an operation are as they are meant to be. -/
theorem apply_marks (o : Op) (n : Node)
    (hn : n.Entries fun e => e.activeRoute = 0 ∨ e.activeRoute = 1) :
    (o.apply n).Entries fun e => e.activeRoute = 0 ∨ e.activeRoute = 1 := by
  refine entries_apply _ o n hn (fun e heff => ?_) (fun ip f e heff he => ?_)
  · cases o with
    | create =>
        cases heff
        exact Or.inl rfl
    | previousHop | reverseRoute | hello | forwardRoute | searchFound | activate | breakRoute
    | linkBreak | outgoingBreak | expireRoute | removeEntry | write | startSearch | beginWait
    | moveWaiter | moveHello | incrementSequenceNum | writeSequenceNum | sendRreq | searchFailed
    | sendUnicast | sendBroadcast => cases heff
  · cases o with
    | previousHop env s l new =>
        cases heff
        rcases previousHop_eq env new e l with ⟨t, ht⟩
        rw [ht]
        exact he
    | reverseRoute | hello | forwardRoute =>
        rw [(effect_frame n _ ip f heff trivial e).activeRoute]
        exact he
    -- Only here is the mark set, and only to one.
    | activate ip =>
        cases heff
        rw [activate_eq]
        rcases he with h0 | h1
        · exact Or.inr (if_pos h0)
        · right
          rw [h1]
          rfl
    | write ip w =>
        cases heff
        cases w <;> exact he
    | searchFound | breakRoute | linkBreak | outgoingBreak | expireRoute | startSearch
    | searchFailed =>
        cases heff
        exact he
    | create | removeEntry | beginWait | moveWaiter | moveHello | incrementSequenceNum
    | writeSequenceNum | sendRreq | sendUnicast | sendBroadcast => cases heff

/-- A write that moves the count and the number of marked valid entries alike. -/
theorem counter_of_update (n : Node) (o : Op) (ip : U32) (f : RoutingEntry → RoutingEntry)
    (heff : o.effect n = .update ip f) (hn : CounterExact n)
    (hmove : ∀ e c', n.getRoutingEntry ip = some e →
      c' + e.counts.toNat = activeCount n + (f e).counts.toNat →
      (o.counter n.activeRoutes e).toNat = c') :
    CounterExact (o.apply n) := by
  refine ⟨?_, apply_marks o n hn.marks⟩
  cases he : n.getRoutingEntry ip with
  | some e =>
      rw [apply_activeRoutes n o ip f heff e he]
      exact hmove e _ he (activeCount_update n o ip f heff e he)
  | none =>
      -- No entry is found, so neither the counter nor any slot moves.
      rw [apply_activeRoutes_of_none n o (fun ip' f' e' heff' => ?_), hn.count]
      · refine (activeCount_of_same n _ (fun i => ?_)).symm
        rw [Node.countsAt, apply_slots, heff]
        simp only [Effect.slot]
        split
        · rw [‹i = slotOf ip›, ← Node.getRoutingEntry_eq, he]
          rw [Node.countsAt, ← Node.getRoutingEntry_eq, he]
          rfl
        · rfl
      · cases heff.symm.trans heff'
        rw [he]
        exact Option.some_ne_none _ |>.symm

/-- A write that leaves status and mark, under an operation that leaves the count. -/
theorem counter_of_silent (n : Node) (o : Op) (ip : U32) (f : RoutingEntry → RoutingEntry)
    (heff : o.effect n = .update ip f) (hn : CounterExact n)
    (hcounter : ∀ e, o.counter n.activeRoutes e = n.activeRoutes)
    (hf : ∀ e, (f e).counts = e.counts) : CounterExact (o.apply n) := by
  refine counter_of_update n o ip f heff hn (fun e c' _ hcount => ?_)
  rw [hcounter, hn.count]
  rw [hf] at hcount
  omega

/-- An operation that makes, removes or leaves entries that do not count. -/
theorem counter_of_same (n : Node) (o : Op) (hn : CounterExact n)
    (hnone : ∀ ip f, o.effect n ≠ .update ip f)
    (hsame : ∀ i, (o.apply n).countsAt i = n.countsAt i) : CounterExact (o.apply n) := by
  refine ⟨?_, apply_marks o n hn.marks⟩
  rw [apply_activeRoutes_of_none n o (fun ip f e heff => absurd heff (hnone ip f)), hn.count,
    activeCount_of_same n _ hsame]

theorem counter_of_revival (n : Node) (o : Op) (ip : U32) (f : RoutingEntry → RoutingEntry)
    (heff : o.effect n = .update ip f) (hn : CounterExact n)
    (hcounter : ∀ e, o.counter n.activeRoutes e = n.activeRoutes)
    (hf : ∀ e, (f e).activeRoute = e.activeRoute ∧ (f e).status = .routeValid)
    (hok : ∀ e, n.getRoutingEntry ip = some e → e.status = .routeInvalid → e.activeRoute = 0) :
    CounterExact (o.apply n) := by
  refine counter_of_update n o ip f heff hn (fun e c' he hcount => ?_)
  rw [hcounter, hn.count]
  exact (revived_counter e (f e) _ _ (hf e).1 (hf e).2 (hok e he) hcount).symm

/-- A section whose test matches the mark keeps the count exact. -/
theorem apply_counter_exact (event : Event) (o : Op) (n : Node) (hn : CounterExact n)
    (hguard : o.Guard event n) (hok : CounterOk o n) : CounterExact (o.apply n) := by
  have hmark : ∀ ip e, n.getRoutingEntry ip = some e → e.activeRoute = 0 ∨ e.activeRoute = 1 :=
    fun ip e he => hn.marks _ e he
  cases o with
  | create env ip s v h c t =>
      refine counter_of_same n _ hn (fun _ _ heff => by cases heff) (fun i => ?_)
      rw [Node.countsAt, Node.countsAt, apply_slots]
      simp only [Op.effect, Effect.slot]
      split
      · cases n.routes.slots i with
        | none => rfl
        | some e => rfl
      · rfl
  | previousHop env s l new =>
      refine counter_of_revival n _ _ _ rfl hn (fun _ => rfl) (fun e => ?_) hok
      rcases previousHop_eq env new e l with ⟨t, ht⟩
      rw [ht]
      exact ⟨rfl, rfl⟩
  | reverseRoute env s m new =>
      refine counter_of_revival n _ _ _ rfl hn (fun _ => rfl) (fun e => ?_) hok
      exact ⟨(reverseRoute_frame env s new e m).activeRoute, (reverseRoute_up env s new e m).1⟩
  | forwardRoute env s m new =>
      exact counter_of_revival n _ _ _ rfl hn (fun _ => rfl)
        (fun e => ⟨(forwardRoute_frame env s new e m).activeRoute, rfl⟩) hok
  | hello env m new =>
      refine counter_of_silent n _ _ _ rfl hn (fun _ => rfl) (fun e => ?_)
      by_cases hm : takesHello m new e
      · rcases hello_accepted env new e m hm with ⟨t, ht⟩
        rw [ht]
        rfl
      · rw [hello_refused env new e m hm]
  | searchFound | startSearch | searchFailed =>
      exact counter_of_silent n _ _ _ rfl hn (fun _ => rfl) (fun _ => rfl)
  | write ip w =>
      refine counter_of_silent n _ _ _ rfl hn (fun _ => rfl) (fun e => ?_)
      cases w <;> rfl
  | activate ip =>
      exact counter_of_update n _ _ _ rfl hn (fun e c' he hcount =>
        activate_counter _ e _ c' hn.count (activeCount_le n) (hmark ip e he) (hok e he) hcount)
  | breakRoute env ip s =>
      refine counter_of_update n _ _ _ rfl hn (fun e c' he hcount => ?_)
      rcases hguard with ⟨sender, -, -, e', -, -, he', hthrough⟩
      cases he.symm.trans he'
      exact released_counter _ e _ _ c' hn.count (hmark ip e he)
        (fun _ => (goesThrough_valid sender e hthrough).2) rfl hcount
  | outgoingBreak env ip =>
      refine counter_of_update n _ _ _ rfl hn (fun e c' he hcount => ?_)
      rcases hguard with ⟨e', he', hactive⟩
      cases he.symm.trans he'
      simp only [RoutingEntry.isActive, Bool.and_eq_true, decide_eq_true_eq] at hactive
      simp only [Op.counter, if_pos hactive.2]
      exact released_counter _ e _ _ c' hn.count (hmark ip e he) (fun _ => hactive.1) rfl hcount
  | expireRoute env ip =>
      refine counter_of_update n _ _ _ rfl hn (fun e c' he hcount => ?_)
      have hvalid : e.status = .routeValid := by
        rcases hguard with ⟨-, e', he', -, hvalid⟩
        cases he.symm.trans he'
        exact hvalid
      simp only [Op.counter]
      by_cases hseq : e.seqValid = .seqValid
      · rw [if_pos hseq]
        exact released_counter _ e _ _ c' hn.count (hmark ip e he) (fun _ => hvalid) rfl hcount
      · rw [if_neg hseq, hn.count]
        exact (kept_counter e _ _ c' (fun h1 => absurd (hok e he h1) hseq) rfl hcount).symm
  | linkBreak env ip =>
      refine counter_of_update n _ _ _ rfl hn (fun e c' he hcount => ?_)
      have hlisted := hok e he
      simp only [Op.counter]
      by_cases hdown : e.activeRoute = 1 → e.status = .routeValid
      · by_cases hpre : e.precursorList ≠ []
        · rw [if_pos hpre]
          exact released_counter _ e _ _ c' hn.count (hmark ip e he) hdown rfl hcount
        · rw [if_neg hpre, hn.count]
          refine (kept_counter e _ _ c' (fun h1 => ?_) rfl hcount).symm
          have hneed := hlisted h1
          rw [if_pos (hdown h1)] at hneed
          exact absurd hneed hpre
      · -- The entry is marked and has been taken down before.
        rcases Classical.not_imp.mp hdown with ⟨h1, hinvalid⟩
        have hneed := hlisted h1
        rw [if_neg hinvalid] at hneed
        have hsame : c' = activeCount n := kept_counter e _ _ c' (fun _ => by
          cases hs : e.status with
          | routeValid => exact absurd hs hinvalid
          | routeInvalid => rfl) rfl hcount
        rw [hsame, ← hn.count]
        rcases hneed with hnil | hzero
        · rw [if_neg (fun hpre => hpre hnil)]
        · rw [hzero]
          split <;> rfl
  | removeEntry ip =>
      refine counter_of_same n _ hn (fun _ _ heff => by cases heff) (fun i => ?_)
      rw [Node.countsAt, Node.countsAt, apply_slots]
      simp only [Op.effect, Effect.slot]
      split
      · rcases hguard with ⟨-, e, he, -, hinvalid⟩
        rw [‹i = slotOf ip›, ← Node.getRoutingEntry_eq, he, Option.any_some, RoutingEntry.counts,
          hinvalid]
        rfl
      · rfl
  | beginWait | moveWaiter | moveHello | incrementSequenceNum | writeSequenceNum | sendRreq
  | sendUnicast | sendBroadcast =>
      exact counter_of_same n _ hn (fun _ _ heff => by cases heff) (fun _ => rfl)

/-! ### The hello thread -/

/-- Some entry is valid and marked. -/
def Node.HasActive (n : Node) : Prop :=
  ∃ i e, n.routes.slots i = some e ∧ e.status = .routeValid ∧ e.activeRoute = 1

/-- The hello thread, at its test, passes it. -/
def passesTest (n : Node) : Prop :=
  n.helloStage = .spinning ∧ (helloInterval.exec Op.apply n).1.helloStage = .sleeping

/-- The hello thread sends when it goes on. -/
def sendsHello (n : Node) : Prop := (helloInterval.exec Op.apply n).1.log ≠ n.log

theorem passesTest_iff (n : Node) (hstage : n.helloStage = .spinning) :
    passesTest n ↔ n.activeRoutes ≠ 0 := by
  unfold passesTest
  simp only [helloInterval, Prog.exec, hstage, true_and]
  by_cases hzero : n.activeRoutes = 0
  · rw [if_pos hzero]
    refine iff_of_false (fun h => ?_) (fun h => h hzero)
    cases hstage.symm.trans h
  · rw [if_neg hzero]
    exact iff_of_true rfl hzero

/-- It sends when it wakes up, and does not look at the count again. -/
theorem sendsHello_iff (n : Node) : sendsHello n ↔ n.helloStage = .sleeping := by
  unfold sendsHello
  simp only [helloInterval, Prog.exec]
  cases hstage : n.helloStage with
  | spinning =>
      refine iff_of_false (fun h => h ?_) (fun h => by cases h)
      simp only []
      split
      · rfl
      · rfl
  | sleeping => exact iff_of_true (List.cons_ne_self _ _) rfl

/-- No section takes the last of the entries that count down while the hello thread
    sleeps. -/
def LastStays : Op → Node → Prop
  | .breakRoute _ ip _, n | .linkBreak _ ip, n | .outgoingBreak _ ip, n | .expireRoute _ ip, n =>
    n.helloStage = .sleeping → ∀ e, n.getRoutingEntry ip = some e → e.counts = true →
      n.activeRoutes ≠ 1
  | _, _ => True

instance (o : Op) (n : Node) : Decidable (LastStays o n) := by
  cases o <;> unfold LastStays <;> infer_instance

/-- The thread sleeps only while an entry counts. -/
def Awake (n : Node) : Prop := n.helloStage = .sleeping → n.activeRoutes ≠ 0

theorem pos_iff_ne_zero (n : Node) (hn : CounterExact n) :
    n.activeRoutes ≠ 0 ↔ 0 < activeCount n := by
  rw [← hn.count]
  constructor
  · exact fun hne => Nat.pos_of_ne_zero fun h0 => hne (BitVec.eq_of_toNat_eq h0)
  · intro hlt h0
    rw [h0] at hlt
    exact absurd hlt (by decide)

/-- A section that takes an entry down leaves another that counts. -/
theorem pos_of_down (n : Node) (o : Op) (ip : U32) (f : RoutingEntry → RoutingEntry)
    (heff : o.effect n = .update ip f) (hn : CounterExact n) (hn' : CounterExact (o.apply n))
    (hlast : ∀ e, n.getRoutingEntry ip = some e → e.counts = true → n.activeRoutes ≠ 1)
    (hpos : n.activeRoutes ≠ 0) : (o.apply n).activeRoutes ≠ 0 := by
  cases he : n.getRoutingEntry ip with
  | none =>
      rw [apply_activeRoutes_of_none n o fun ip' f' e' heff' => ?_]
      · exact hpos
      · cases heff.symm.trans heff'
        rw [he]
        exact Option.some_ne_none _ |>.symm
  | some e =>
      have hmoved := activeCount_update n o ip f heff e he
      rw [pos_iff_ne_zero _ hn']
      rw [pos_iff_ne_zero _ hn] at hpos
      cases hcounts : e.counts with
      | false =>
          rw [hcounts, Bool.toNat_false] at hmoved
          omega
      | true =>
          -- It is not the only one, since the count is exact.
          have hmore : activeCount n ≠ 1 := by
            rw [← hn.count]
            exact fun hone => hlast e he hcounts (BitVec.eq_of_toNat_eq hone)
          rw [hcounts, Bool.toNat_true] at hmoved
          omega

/-- The other sections lower no count. -/
theorem counter_ne_zero (o : Op) (a : U32) (e : RoutingEntry) (ha : a ≠ 0) (hle : a.toNat ≤ 256)
    (hkeeps : ∀ a, o.counter a e = a ∨ o.counter a e = a + 1) : o.counter a e ≠ 0 := by
  rcases hkeeps a with hsame | hmore
  · rw [hsame]
    exact ha
  · rw [hmore]
    intro hzero
    have hone : (a + 1).toNat = (a.toNat + 1) % 2 ^ 32 := BitVec.toNat_add a 1
    rw [hzero, Nat.mod_eq_of_lt (by omega)] at hone
    cases hone

theorem apply_awake (event : Event) (o : Op) (n : Node) (hn : CounterExact n)
    (hguard : o.Guard event n) (hok : CounterOk o n) (hlast : LastStays o n) (hawake : Awake n) :
    Awake (o.apply n) := by
  have hn' := apply_counter_exact event o n hn hguard hok
  have hle : n.activeRoutes.toNat ≤ 256 := by
    rw [hn.count]
    exact activeCount_le n
  by_cases hmoves : ∃ stage, o = .moveHello stage
  · -- The thread falls asleep only when it has passed its test.
    rcases hmoves with ⟨stage, rfl⟩
    exact hguard
  · intro hsleeping
    rw [apply_helloStage n o fun stage ho => hmoves ⟨stage, ho⟩] at hsleeping
    have hpos := hawake hsleeping
    -- What makes entries, or finds none, leaves the count.
    by_cases hfound : ∃ ip f e, o.effect n = .update ip f ∧ n.getRoutingEntry ip = some e
    · rcases hfound with ⟨ip, f, e, heff, he⟩
      rw [apply_activeRoutes n o ip f heff e he]
      cases o with
      | breakRoute | linkBreak | outgoingBreak | expireRoute =>
          cases heff
          rw [← apply_activeRoutes n _ _ _ rfl e he]
          exact pos_of_down n _ _ _ rfl hn hn' (hlast hsleeping) hpos
      | activate ip =>
          refine counter_ne_zero _ _ e hpos hle fun a => ?_
          simp only [Op.counter]
          split
          · exact Or.inr rfl
          · exact Or.inl rfl
      | _ => exact hpos
    · rw [apply_activeRoutes_of_none n o fun ip f e heff he => hfound ⟨ip, f, e, heff, he⟩]
      exact hpos

/-! ### Runs -/

theorem hasActive_iff (n : Node) (hn : CounterExact n) : n.HasActive ↔ n.activeRoutes ≠ 0 := by
  rw [pos_iff_ne_zero n hn, activeCount, countTrue_pos_iff]
  -- What is left says when a single slot counts.
  refine exists_congr (fun i => ?_)
  unfold Node.countsAt
  cases n.routes.slots i with
  | none => exact iff_of_false (fun ⟨_, h, _⟩ => absurd h nofun) nofun
  | some e =>
      simp only [Option.any_some, RoutingEntry.counts, Bool.and_eq_true, decide_eq_true_eq,
        Option.some.injEq, exists_eq_left']

/-- In a run whose sections all match the marks the count is exact in every state, the
    hello thread passes its test exactly while an entry counts, and sends once for every
    time it has passed. If no section takes the last such entry down while the thread
    sleeps, it sends only while an entry counts. -/
theorem counter_exact (ip bcast : U32) (hello : Nat → Byte) (inputs : List Input)
    (hok : AllSteps step (OpsMeet CounterOk) (Node.boot ip bcast hello) inputs) :
    let n := run step (Node.boot ip bcast hello) inputs
    n.activeRoutes.toNat = activeCount n ∧
      (n.helloStage = .spinning → (passesTest n ↔ n.HasActive)) ∧
      (sendsHello n ↔ n.helloStage = .sleeping) ∧
      (AllSteps step (OpsMeet LastStays) (Node.boot ip bcast hello) inputs →
        sendsHello n → n.HasActive) := by
  have hinit : CounterExact (Node.boot ip bcast hello) :=
    ⟨rfl, fun i e he => absurd he (Node.boot_slots_ne ip bcast hello i e)⟩
  have hexact : CounterExact (run step (Node.boot ip bcast hello) inputs) :=
    node_invariant_guarded CounterOk CounterExact apply_counter_exact _ inputs hinit hok
  refine ⟨hexact.count, fun hstage => ?_, sendsHello_iff _, fun hlast hsends => ?_⟩
  · rw [passesTest_iff _ hstage, hasActive_iff _ hexact]
  · have hboth : AllSteps step (OpsMeet fun o n => CounterOk o n ∧ LastStays o n)
        (Node.boot ip bcast hello) inputs :=
      AllSteps.imp step (fun n input h => h.1.and input.handler n h.2) _ inputs
        ((allSteps_and step _ _ _ inputs).mpr ⟨hok, hlast⟩)
    have hawake := node_invariant_guarded (fun o n => CounterOk o n ∧ LastStays o n)
      (fun n => CounterExact n ∧ Awake n)
      (fun event o n hn hguard h => ⟨apply_counter_exact event o n hn.1 hguard h.1,
        apply_awake event o n hn.1 hguard h.1 h.2 hn.2⟩) _ inputs ⟨hinit, nofun⟩ hboth
    rw [hasActive_iff _ hexact]
    exact hawake.2 ((sendsHello_iff _).mp hsends)

/-- A route is found, the hello thread passes its test, and the route is used. -/
theorem counter_exact_reply :
    let n := run step (Node.boot 0x01000000 0xFF000000 fun _ => 0)
      [receive 0x02000000 (replyAfter 1 0x03000000 5 0x01000000),
        { env := .clear, event := .hello }, { env := .clear, event := .outgoing 0x03000000 }]
    n.activeRoutes.toNat = activeCount n ∧ sendsHello n ∧ n.HasActive := by
  rcases counter_exact 0x01000000 0xFF000000 (fun _ => 0)
    [receive 0x02000000 (replyAfter 1 0x03000000 5 0x01000000),
      { env := .clear, event := .hello }, { env := .clear, event := .outgoing 0x03000000 }]
    (by decide) with ⟨hcount, -, hsends, hactive⟩
  have hsleeping := hsends.mpr (by decide)
  exact ⟨hcount, hsleeping, hactive (by decide) hsleeping⟩

-- The route is gone when the thread wakes up, and the hello is sent all the same.
example :
    let n := run step (Node.boot 0x01000000 0xFF000000 fun _ => 0)
      [receive 0x02000000 (replyAfter 1 0x03000000 5 0x01000000),
        { env := .clear, event := .hello }, { env := .clear, event := .expire 0x03000000 }]
    n.activeRoutes = 0 ∧ n.helloStage = .sleeping := by
  decide

/-- The route of a search expires and its destination is then heard from as a
    neighbour, which makes the marked entry valid again. -/
def revivedRoute : List Input :=
  [receive 0x02000000 (replyAfter 1 0x03000000 5 0x01000000),
    { env := .clear, event := .expire 0x03000000 },
    receive 0x03000000 (requestFor 1 1 0x04000000 0x05000000 1)]

/-- The count is zero although the entry is valid and marked, and the hello thread does
    not pass its test. -/
theorem not_counter_exact_revivedRoute :
    ¬ ∀ (ip bcast : U32) (hello : Nat → Byte) (inputs : List Input),
      let n := run step (Node.boot ip bcast hello) inputs
      n.activeRoutes.toNat = activeCount n ∧
        (n.helloStage = .spinning → (passesTest n ↔ n.HasActive)) ∧
        (sendsHello n → n.HasActive) := by
  intro hall
  rcases hall 0x01000000 0xFF000000 (fun _ => 0) revivedRoute with ⟨-, htest, -⟩
  have hpasses := (htest rfl).mpr ⟨3, _, rfl, rfl, rfl⟩
  rw [passesTest_iff _ rfl] at hpasses
  exact hpasses (by decide)

end OpenManet
