import OpenManet.Theory.Guards

/-!
# No Entry Is Immortal

Between steps every entry waits for something: for its timer, or for the search
thread it names, which sets the timer when it gives up and is cancelled only where the
timer is set in its place. Inside a handler this is not so. An entry is made without a
timer, a search cancels the timer before it creates the thread, and a reply to the
node's own search cancels the thread first and sets the timer in its last section. So
the argument about a handler keeps the set of slots that may be without, and every
handler ends with this set empty.

A thread is found by its id, and the slot of its destination is the slot of the entry
that names it; `ThreadsKnown` has what is needed of the ids.

## Main definitions

* `ThreadsKnown`: Ids are unique, and threads belong to the slots of their entries.
* `Waits`, `WaitsBut`: An entry waits; all entries do but those of some slots.
* `Op.Opens`: The operations that may leave an entry without.
* `SearchStage.rounds`: How many rounds a thread has left.

## Theorems

* `waitsBut_apply`: What all other operations keep.
* `waitsBut_close`, `waitsBut_start`: The operations that give an entry a timer or a
  thread.
* `step_waits`: Every step ends with every entry waiting.
* `thread_sets_timer`: A search thread left to run sets the timer.
* `no_entry_immortal`: Both for every reachable state.
-/

namespace OpenManet

/-! ### Ids of threads -/

/-- Ids are handed out in order, from one on, for one destination each, and an entry
    that names a thread is in the slot of the thread's destination. -/
structure ThreadsKnown (n : Node) : Prop where
  started : 0 < n.nextThread
  ids : ∀ t ∈ n.threads, 0 < t.id ∧ t.id < n.nextThread
  unique : ∀ t ∈ n.threads, ∀ u ∈ n.threads, t.id = u.id → t.dest = u.dest
  senders : n.Entries fun e => e.rreqMessageSender < n.nextThread
  slots : ∀ i e, n.routes.slots i = some e → ∀ t ∈ n.threads, t.id = e.rreqMessageSender →
    slotOf t.dest = i

theorem boot_threadsKnown (ip bcast : U32) (hello : Nat → Byte) :
    ThreadsKnown (Node.boot ip bcast hello) where
  started := Nat.one_pos
  ids := fun _ ht => absurd ht List.not_mem_nil
  unique := fun _ ht => absurd ht List.not_mem_nil
  senders := fun i e he => absurd he (Node.boot_slots_ne ip bcast hello i e)
  slots := fun i e he => absurd he (Node.boot_slots_ne ip bcast hello i e)

theorem nextThread_le (n : Node) (o : Op) : n.nextThread ≤ (o.apply n).nextThread := by
  rw [apply_nextThread]
  split
  · exact Nat.le_succ _
  · exact Nat.le_refl _

/-- A thread after an operation is one from before it, or has the next id. -/
theorem thread_origin (n : Node) (o : Op) (t : SearchThread) (ht : t ∈ (o.apply n).threads) :
    (∃ t₀ ∈ n.threads, t₀.id = t.id ∧ t₀.dest = t.dest) ∨
      (o = .startSearch t.dest ∧ t.id = n.nextThread) := by
  rcases apply_threads n o t ht with hold | ⟨dest, rfl, rfl⟩ | ⟨t₀, ht₀, -, -, -, hid, hdest⟩
  · exact Or.inl ⟨t, hold, rfl, rfl⟩
  · exact Or.inr ⟨rfl, rfl⟩
  · exact Or.inl ⟨t₀, ht₀, hid, hdest⟩

theorem threadsKnown_apply (n : Node) (o : Op) (h : ThreadsKnown n) : ThreadsKnown (o.apply n) := by
  have hmore := nextThread_le n o
  have hstarted : ∀ dest, o = .startSearch dest → n.nextThread < (o.apply n).nextThread := by
    rintro dest rfl
    exact Nat.lt_succ_self _
  constructor
  case started => exact Nat.lt_of_lt_of_le h.started hmore
  case ids =>
    intro t ht
    rcases thread_origin n o t ht with ⟨t₀, ht₀, hid, -⟩ | ⟨hstart, hid⟩
    · have hold := h.ids t₀ ht₀
      omega
    · have hpos := h.started
      have hlt := hstarted _ hstart
      omega
  case unique =>
    intro t ht u hu hid
    rcases thread_origin n o t ht with ⟨t₀, ht₀, hid₀, hdest₀⟩ | ⟨hstart, hnew⟩
    · rcases thread_origin n o u hu with ⟨u₀, hu₀, hid₁, hdest₁⟩ | ⟨-, hnew⟩
      · rw [← hdest₀, ← hdest₁]
        exact h.unique t₀ ht₀ u₀ hu₀ (by omega)
      · -- The next id is no thread's yet.
        have hold := h.ids t₀ ht₀
        omega
    · rcases thread_origin n o u hu with ⟨u₀, hu₀, hid₁, -⟩ | ⟨hstart', -⟩
      · have hold := h.ids u₀ hu₀
        omega
      · rw [hstart] at hstart'
        exact Op.startSearch.inj hstart'
  case senders =>
    intro i e he
    rcases entry_origin n o i e he with hfresh | hold | ⟨ip, f, e₀, heff, -, he₀, rfl⟩
    · cases o with
      | create =>
          cases hfresh
          exact Nat.lt_of_lt_of_le h.started hmore
      | _ => cases hfresh
    · exact Nat.lt_of_lt_of_le (h.senders i e hold) hmore
    · have hold := h.senders i e₀ he₀
      simp only [] at hold
      rcases effect_sender n o ip f heff e₀ with hsame | hzero | ⟨hstart, hnext⟩
      · rw [hsame]
        omega
      · have hpos := h.started
        rw [hzero]
        omega
      · have hlt := hstarted ip hstart
        rw [hnext]
        exact hlt
  case slots =>
    intro i e he t ht hnames
    have hid : 0 < t.id ∧ (t.id = n.nextThread ∨ t.id < n.nextThread) := by
      rcases thread_origin n o t ht with ⟨t₀, ht₀, hid, -⟩ | ⟨-, hid⟩
      · have hold := h.ids t₀ ht₀
        omega
      · have hpos := h.started
        omega
    -- An entry that was there and names the thread names an old one.
    have hold : ∀ e₀, n.routes.slots i = some e₀ → t.id = e₀.rreqMessageSender →
        slotOf t.dest = i := by
      intro e₀ he₀ hnames₀
      have hlt := h.senders i e₀ he₀
      simp only [] at hlt
      rcases thread_origin n o t ht with ⟨t₀, ht₀, hid₀, hdest₀⟩ | ⟨-, hnew⟩
      · rw [← hdest₀]
        exact h.slots i e₀ he₀ t₀ ht₀ (hid₀.trans hnames₀)
      · omega
    rcases entry_origin n o i e he with hfresh | hsame | ⟨ip, f, e₀, heff, hi, he₀, rfl⟩
    · cases o with
      | create =>
          cases hfresh
          exact absurd hid.1 (hnames ▸ Nat.lt_irrefl 0)
      | _ => cases hfresh
    · exact hold e hsame hnames
    · rcases effect_sender n o ip f heff e₀ with hsame | hzero | ⟨hstart, hnext⟩
      · exact hold e₀ he₀ (hnames.trans hsame)
      · rw [hzero] at hnames
        omega
      · rcases thread_origin n o t ht with ⟨t₀, ht₀, hid₀, -⟩ | ⟨hstart', -⟩
        · have hlt := h.ids t₀ ht₀
          omega
        · rw [hstart] at hstart'
          rw [hi, Op.startSearch.inj hstart']

/-! ### Waiting entries -/

/-- The entry of the slot waits for its timer or for the thread it names. -/
def Waits (n : Node) (i : Fin 256) (e : RoutingEntry) : Prop :=
  e.expirationThread = true ∨
    ∃ t ∈ n.threads, t.id = e.rreqMessageSender ∧ slotOf t.dest = i

/-- Every entry waits, but for those of some slots. -/
def WaitsBut (S : Finset (Fin 256)) (n : Node) : Prop :=
  ∀ i e, i ∉ S → n.routes.slots i = some e → Waits n i e

/-- The operation may leave an entry without timer and thread. -/
def Op.Opens : Op → Prop
  | create _ _ _ _ _ _ _ | write _ .stopTimer | searchFound _ => True
  | _ => False

/-- The timer of an entry across a write that opens nothing. -/
theorem effect_timer (n : Node) (o : Op) (hopens : ¬ o.Opens) (ip : U32)
    (f : RoutingEntry → RoutingEntry) (heff : o.effect n = .update ip f) (e : RoutingEntry) :
    (f e).expirationThread = true ∨
      ((f e).expirationThread = e.expirationThread ∧
        (f e).rreqMessageSender = e.rreqMessageSender) ∨
      (o = .startSearch ip ∧ (f e).rreqMessageSender = n.nextThread) := by
  cases o with
  | previousHop env s l new =>
      cases heff
      rcases previousHop_eq env new e l with ⟨t, ht⟩
      rw [ht]
      exact Or.inl rfl
  | reverseRoute env s m new =>
      cases heff
      exact Or.inl rfl
  | hello env m new =>
      cases heff
      by_cases hm : takesHello m new e
      · rcases hello_accepted env new e m hm with ⟨t, ht⟩
        rw [ht]
        exact Or.inl rfl
      · rw [hello_refused env new e m hm]
        exact Or.inr (Or.inl ⟨rfl, rfl⟩)
  | forwardRoute env s m new =>
      cases heff
      exact Or.inl (forwardRoute_up env s new e m).2
  | activate ip =>
      cases heff
      rw [activate_eq]
      exact Or.inr (Or.inl ⟨rfl, rfl⟩)
  | write ip w =>
      cases heff
      cases w with
      | timer => exact Or.inl rfl
      -- A timer that is stopped opens the slot, which the condition leaves out.
      | stopTimer => exact absurd trivial hopens
      | precursor | searchNone | forgetRreqId => exact Or.inr (Or.inl ⟨rfl, rfl⟩)
  | breakRoute | linkBreak | outgoingBreak | searchFailed =>
      cases heff
      exact Or.inl rfl
  | expireRoute =>
      cases heff
      exact Or.inr (Or.inl ⟨rfl, rfl⟩)
  | startSearch ip =>
      cases heff
      exact Or.inr (Or.inr ⟨rfl, rfl⟩)
  | searchFound => exact absurd trivial hopens
  | create | removeEntry | beginWait | moveWaiter | moveHello | incrementSequenceNum
  | writeSequenceNum | sendRreq | sendUnicast | sendBroadcast => cases heff

/-- A thread that an entry waits for is cancelled only by an operation on that
    entry. -/
theorem thread_survives (event : Event) (n : Node) (o : Op) (h : ThreadsKnown n)
    (hguard : o.Guard event n) (i : Fin 256) (t : SearchThread) (ht : t ∈ n.threads)
    (hslot : slotOf t.dest = i)
    (hother : ∀ ip, (∃ f, o.effect n = .update ip f) ∨ o.effect n = .remove ip → i ≠ slotOf ip) :
    ∃ t' ∈ (o.apply n).threads, t'.id = t.id ∧ slotOf t'.dest = i := by
  rcases apply_threads_survive n o t ht with hcancels | ⟨t', ht', hid, hdest⟩
  · exfalso
    -- A cancelled thread was the one of the entry in the slot that is worked on.
    cases o with
    | searchFound ip =>
        rcases hcancels with ⟨e, he, hid⟩
        have hsame := h.slots _ e he t ht hid.symm
        exact hother ip (Or.inl ⟨_, rfl⟩) (hslot.symm.trans hsame)
    | removeEntry ip =>
        rcases hcancels with ⟨e, he, hid⟩
        have hsame := h.slots _ e he t ht hid.symm
        exact hother ip (Or.inr rfl) (hslot.symm.trans hsame)
    | searchFailed env id ip =>
        rcases hguard with ⟨-, u, hu, hid, hdest⟩
        have hsame := h.unique t ht u hu (hcancels.symm.trans hid.symm)
        refine hother ip (Or.inl ⟨_, rfl⟩) ?_
        rw [← hslot, hsame, hdest]
    | _ => exact hcancels
  · exact ⟨t', ht', hid, hdest ▸ hslot⟩

/-- What opens no slot keeps every entry waiting that was. -/
theorem waitsBut_apply (event : Event) (S : Finset (Fin 256)) (n : Node) (o : Op)
    (h : ThreadsKnown n) (hguard : o.Guard event n) (hopens : ¬ o.Opens) (hn : WaitsBut S n) :
    WaitsBut S (o.apply n) := by
  intro i e hi he
  have hcase : (∀ ip f, o.effect n = .update ip f → i ≠ slotOf ip) ∨
      ∃ ip f, o.effect n = .update ip f ∧ i = slotOf ip := by
    by_cases htouch : ∃ ip f, o.effect n = .update ip f ∧ i = slotOf ip
    · exact Or.inr htouch
    · exact Or.inl (fun ip f heff hslot => htouch ⟨ip, f, heff, hslot⟩)
  have hremoved : ∀ ip, o.effect n = .remove ip → i ≠ slotOf ip := by
    intro ip heff hslot
    rw [apply_slots, heff] at he
    simp only [Effect.slot, if_pos hslot] at he
    cases he
  rcases hcase with helse | ⟨ip, f, heff, hslot⟩
  · rcases entry_origin n o i e he with hfresh | hsame | ⟨ip, f, e₀, heff, hslot, -, -⟩
    · cases o with
      | create => exact absurd trivial hopens
      | _ => cases hfresh
    · rcases hn i e hi hsame with htimer | ⟨t, ht, hid, hdest⟩
      · exact Or.inl htimer
      · have hother : ∀ ip, (∃ f, o.effect n = .update ip f) ∨ o.effect n = .remove ip →
            i ≠ slotOf ip := by
          rintro ip (⟨f, heff⟩ | heff)
          · exact helse ip f heff
          · exact hremoved ip heff
        rcases thread_survives event n o h hguard i t ht hdest hother with ⟨t', ht', hid', hdest'⟩
        exact Or.inr ⟨t', ht', hid'.trans hid, hdest'⟩
    · exact absurd hslot (helse ip f heff)
  · -- The operation writes to this entry.
    rw [apply_slots, heff] at he
    simp only [Effect.slot, if_pos hslot] at he
    rcases Option.map_eq_some_iff.mp he with ⟨e₀, he₀, rfl⟩
    rcases effect_timer n o hopens ip f heff e₀ with htimer | ⟨htimer, hsender⟩ | ⟨rfl, hnext⟩
    · exact Or.inl htimer
    · rcases hn i e₀ hi he₀ with hold | ⟨t, ht, hid, hdest⟩
      · exact Or.inl (htimer.trans hold)
      · by_cases hleaves : o.LeavesThreads
        · exact Or.inr ⟨t, (apply_sameThreads n o hleaves).threads ▸ ht, hid.trans hsender.symm,
            hdest⟩
        · -- Of the operations on threads these two write to an entry.
          cases o with
          | searchFound => exact absurd trivial hopens
          | startSearch ip' =>
              exact Or.inr ⟨t, List.mem_append_left _ ht, hid.trans hsender.symm, hdest⟩
          | searchFailed =>
              cases heff
              exact Or.inl rfl
          | removeEntry | sendRreq | beginWait | moveWaiter => cases heff
          | _ => exact absurd trivial hleaves
    · refine Or.inr ⟨⟨n.nextThread, ip, .starting⟩, ?_, hnext.symm, hslot.symm⟩
      exact List.mem_append_right _ List.mem_cons_self

/-- More slots may be without. -/
theorem waitsBut_mono {S T : Finset (Fin 256)} (hsub : S ⊆ T) {n : Node} (hn : WaitsBut S n) :
    WaitsBut T n := fun i e hi he => hn i e (fun hin => hi (hsub hin)) he

/-- An operation that opens a slot leaves the others as they are. -/
theorem waitsBut_open (event : Event) (S : Finset (Fin 256)) (n : Node) (o : Op) (ip : U32)
    (hwork : (∃ f, o.effect n = .update ip f) ∨
      ∃ e, o.effect n = .create e ∧ slotOf e.destIp = slotOf ip)
    (h : ThreadsKnown n) (hguard : o.Guard event n) (hn : WaitsBut (insert (slotOf ip) S) n) :
    WaitsBut (insert (slotOf ip) S) (o.apply n) := by
  intro i e hi he
  have hother : i ≠ slotOf ip := fun hslot => hi (hslot ▸ Finset.mem_insert_self _ _)
  have hsame : n.routes.slots i = some e := by
    rw [apply_slots] at he
    rcases hwork with ⟨f, heff⟩ | ⟨fresh, heff, hslot⟩
    · rw [heff] at he
      exact (if_neg hother).symm.trans he
    · rw [heff] at he
      exact (if_neg (fun hi' => hother (hi'.trans hslot))).symm.trans he
  rcases hn i e hi hsame with htimer | ⟨t, ht, hid, hdest⟩
  · exact Or.inl htimer
  · -- The operation works in its own slot, so the thread of another is not cancelled.
    have hnot : ∀ ip', (∃ f, o.effect n = .update ip' f) ∨ o.effect n = .remove ip' →
        i ≠ slotOf ip' := by
      rintro ip' hto
      rcases hwork with ⟨f, heff⟩ | ⟨fresh, heff, -⟩
      · rcases hto with ⟨f', heff'⟩ | heff'
        · cases heff.symm.trans heff'
          exact hother
        · cases heff.symm.trans heff'
      · rcases hto with ⟨f', heff'⟩ | heff'
        · cases heff.symm.trans heff'
        · cases heff.symm.trans heff'
    rcases thread_survives event n o h hguard i t ht hdest hnot with ⟨t', ht', hid', hdest'⟩
    exact Or.inr ⟨t', ht', hid'.trans hid, hdest'⟩

/-- An operation that sets the timer of an entry, or names a thread that has just
    begun, closes its slot. -/
theorem waitsBut_close (event : Event) (S : Finset (Fin 256)) (n : Node) (o : Op) (ip : U32)
    (f : RoutingEntry → RoutingEntry) (heff : o.effect n = .update ip f)
    (hcloses : o = .startSearch ip ∨
      ∀ e, n.getRoutingEntry ip = some e → (f e).expirationThread = true)
    (h : ThreadsKnown n) (hguard : o.Guard event n) (hopens : ¬ o.Opens)
    (hn : WaitsBut (insert (slotOf ip) S) n) : WaitsBut S (o.apply n) := by
  intro i e hi he
  by_cases hslot : i = slotOf ip
  · have hafter := he
    rw [apply_slots, heff] at hafter
    simp only [Effect.slot, if_pos hslot] at hafter
    rcases Option.map_eq_some_iff.mp hafter with ⟨e₀, he₀, rfl⟩
    -- The slot is closed by a search thread of its own or by a timer that runs.
    rcases hcloses with rfl | htimer
    · cases heff
      refine Or.inr ⟨⟨n.nextThread, ip, .starting⟩, ?_, rfl, hslot.symm⟩
      exact List.mem_append_right _ List.mem_cons_self
    · rw [hslot] at he₀
      exact Or.inl (htimer e₀ he₀)
  · have hout : i ∉ insert (slotOf ip) S := by
      intro hin
      rcases Finset.mem_insert.mp hin with hip | hS
      · exact hslot hip
      · exact hi hS
    exact waitsBut_apply event _ n o h hguard hopens hn i e hout he

/-! ### The handlers -/

/-- The operations of the handler find what they rely on, the ids of threads
    included. -/
abbrev Handler.Sound (event : Event) (h : Handler) (n : Node) : Prop :=
  h.Meets Op.apply (fun o n => o.Guard event n ∧ ThreadsKnown n) n

section Handlers

variable {event : Event} {S : Finset (Fin 256)}

theorem waitsBut_exec (h : Handler) (n : Node) (hsound : h.Sound event n)
    (hquiet : h.Meets Op.apply (fun o _ => ¬ o.Opens) n) (hn : WaitsBut S n) :
    WaitsBut S (h.exec Op.apply n).1 :=
  Prog.exec_invariant Op.apply
    (fun o n => (o.Guard event n ∧ ThreadsKnown n) ∧ ¬ o.Opens) (WaitsBut S)
    (fun o n hn ho => waitsBut_apply event S n o ho.1.2 ho.1.1 ho.2 hn) h n hn
    (Prog.Meets.and h n hsound hquiet)

/-- What follows a route section opens nothing. -/
theorem not_opens_of_follows (o : Op) (h : o.FollowsRoute) : ¬ o.Opens := by
  cases o with
  | write ip w =>
      cases w with
      | precursor p => exact id
      | timer | stopTimer | searchNone | forgetRreqId => exact absurd h id
  | activate | writeSequenceNum | sendUnicast | sendBroadcast => exact id
  | _ => exact absurd h id

/-- An entry is found or made, and a section sets its timer. -/
theorem waitsBut_section (n : Node) (o : Op) (env : Env) (ip s : U32) (v : SeqValid) (hop c t : U32)
    (f : RoutingEntry → RoutingEntry)
    (heff : o.effect ((Op.create env ip s v hop c t).apply n) = .update ip f)
    (htimer : ∀ e, (f e).expirationThread = true) (hopens : ¬ o.Opens)
    (hcreate : (Op.create env ip s v hop c t).Guard event n ∧ ThreadsKnown n)
    (ho : o.Guard event ((Op.create env ip s v hop c t).apply n) ∧
      ThreadsKnown ((Op.create env ip s v hop c t).apply n))
    (hn : WaitsBut (insert (slotOf ip) S) n) :
    WaitsBut S (o.apply ((Op.create env ip s v hop c t).apply n)) :=
  waitsBut_close event S _ o ip f heff (Or.inr fun e _ => htimer e) ho.2 ho.1 hopens
    (waitsBut_open event S n _ ip (Or.inr ⟨_, rfl, rfl⟩) hcreate.2 hcreate.1 hn)

theorem previousHopSection_waits (env : Env) (s l : U32) (next : Handler) (n : Node)
    (hsound : (previousHopSection env s l next).Sound event n) (hn : WaitsBut S n) :
    next.Sound event (afterPreviousHop env s l n) ∧ WaitsBut S (afterPreviousHop env s l n) := by
  rcases hsound with ⟨hcreate, hhop, hnext⟩
  refine ⟨hnext, ?_⟩
  refine waitsBut_section n (.previousHop env s l (n.isNew s)) env s 0 .seqInvalid s 0 _ _ rfl
    (fun e => ?_) id hcreate hhop (waitsBut_mono (Finset.subset_insert _ _) hn)
  rcases previousHop_eq env (n.isNew s) e l with ⟨t, ht⟩
  rw [ht]

/-- When there is an entry, none is made. -/
theorem create_of_found (env : Env) (ip s : U32) (v : SeqValid) (hop c t : U32) (n : Node)
    (hnew : n.isNew ip = false) : (Op.create env ip s v hop c t).apply n = n := by
  unfold Node.isNew at hnew
  cases he : n.getRoutingEntry ip with
  | none =>
      rw [he] at hnew
      exact absurd hnew nofun
  | some e => simp only [Op.apply, Node.createOrGetRoutingEntry, he]

theorem recvHello_waits (env : Env) (s : U32) (m : RrepHeader) (n : Node)
    (hsound : (recvHello env s m).Sound event n) (hn : WaitsBut S n) :
    WaitsBut S ((recvHello env s m).exec Op.apply n).1 := by
  rcases hsound with ⟨hcreate, hhello, -⟩
  show WaitsBut S ((Op.hello env m (n.isNew m.destIp)).apply _)
  cases hnew : n.isNew m.destIp with
  | true =>
      rw [hnew] at hhello
      refine waitsBut_section n (.hello env m true) env m.destIp m.destSeq .seqValid s _ _ _ rfl
        (fun e => ?_) id hcreate hhello (waitsBut_mono (Finset.subset_insert _ _) hn)
      rcases hello_accepted env true e m (Or.inl rfl) with ⟨t, ht⟩
      rw [ht]
  | false =>
      -- A hello to a known neighbour may leave the entry alone.
      rw [hnew, create_of_found env _ _ _ _ _ _ n hnew] at hhello
      rw [create_of_found env _ _ _ _ _ _ n hnew]
      exact waitsBut_apply event S n _ hhello.2 hhello.1 id hn

theorem recvNewRreq_waits (env : Env) (s : U32) (m : RreqHeader) (n : Node)
    (hsound : (recvNewRreq env s m).Sound event n) (hn : WaitsBut S n) :
    WaitsBut S ((recvNewRreq env s m).exec Op.apply n).1 := by
  rcases hsound with ⟨hcreate, hroute, hrest⟩
  refine waitsBut_exec (afterReverseRoute env s m _) _ hrest
    (Prog.Meets.imp (fun o _ => not_opens_of_follows o) _ _
      (afterReverseRoute_follows env s m _ _)) ?_
  exact waitsBut_section n (.reverseRoute env s m (n.isNew m.srcIp)) env
    m.srcIp m.srcSeq .seqValid s
    _ 0 _ rfl (fun e => rfl) id hcreate hroute (waitsBut_mono (Finset.subset_insert _ _) hn)

theorem recvRreq_waits (env : Env) (s : U32) (m : RreqHeader) (n : Node)
    (hsound : (recvRreq env s m).Sound event n) (hn : WaitsBut S n) :
    WaitsBut S ((recvRreq env s m).exec Op.apply n).1 := by
  rcases previousHopSection_waits env s m.srcIp _ n hsound hn with ⟨hnext, hpassed⟩
  show WaitsBut S (Prog.exec Op.apply _ (afterPreviousHop env s m.srcIp n)).1
  simp only [Handler.Sound, Prog.Meets, Prog.exec] at hnext ⊢
  split
  · exact hpassed
  · split
    · exact hpassed
    · rename_i hother hfresh
      rw [if_neg hother, if_neg hfresh] at hnext
      exact recvNewRreq_waits env s _ _ hnext hpassed

/-- The last section of a reply gives the entry of the destination its timer. -/
theorem installForwardRoute_waits (env : Env) (s : U32) (m : RrepHeader) (n : Node)
    (hsound : (installForwardRoute env s m).Sound event n)
    (hn : WaitsBut (insert (slotOf m.destIp) S) n) :
    WaitsBut S ((installForwardRoute env s m).exec Op.apply n).1 := by
  rcases hsound with ⟨hcreate, hroute, hrest⟩
  refine waitsBut_exec (afterForwardRoute m) _ hrest
    (Prog.Meets.imp (fun o _ => not_opens_of_follows o) _ _ (afterForwardRoute_follows m _)) ?_
  refine waitsBut_section n (.forwardRoute env s m (n.isNew m.destIp)) env m.destIp m.destSeq
    .seqValid s _ _ _ rfl (fun e => ?_) id hcreate hroute hn
  exact (forwardRoute_up env s _ e m).2

theorem recvRrep_waits (env : Env) (s : U32) (m : RrepHeader) (n : Node)
    (hsound : (recvRrep env s m).Sound event n) (hip : n.ipAddress ≠ 0) (hn : WaitsBut ∅ n) :
    WaitsBut ∅ ((recvRrep env s m).exec Op.apply n).1 := by
  have hinstall : ∀ n, WaitsBut (insert (slotOf m.destIp) ∅) n →
      Handler.Sound event (previousHopSection env s m.destIp
        (installForwardRoute env s (incrementHopRrep m))) n →
      WaitsBut ∅ ((previousHopSection env s m.destIp
        (installForwardRoute env s (incrementHopRrep m))).exec Op.apply n).1 := by
    intro n hn hsound
    rcases previousHopSection_waits env s m.destIp _ n hsound hn with ⟨hnext, hpassed⟩
    exact installForwardRoute_waits env s (incrementHopRrep m) _ hnext hpassed
  simp only [recvRrep, publishFound, Handler.Sound, Prog.Meets, Prog.exec] at hsound ⊢
  by_cases hown : n.ipAddress = m.srcIp ∧ (n.getRoutingEntry m.destIp).isSome = true
  · -- The thread is cancelled first; no hello has this node as its originator.
    have hhello : m.srcIp ≠ 0 := fun hzero => hip (hown.1.trans hzero)
    rw [if_pos hown, if_neg hhello] at hsound ⊢
    rcases hsound with ⟨hfound, hrest⟩
    refine hinstall _ ?_ hrest
    exact waitsBut_open event ∅ n (.searchFound m.destIp) m.destIp
      (Or.inl ⟨_, rfl⟩) hfound.2 hfound.1
      (waitsBut_mono (Finset.subset_insert _ _) hn)
  · rw [if_neg hown] at hsound ⊢
    by_cases hhello : m.srcIp = 0
    · rw [if_pos hhello] at hsound ⊢
      exact recvHello_waits env s _ n hsound hn
    · rw [if_neg hhello] at hsound ⊢
      exact hinstall n (waitsBut_mono (Finset.subset_insert _ _) hn) hsound

theorem start_waits (dest : U32) (n : Node)
    (hsound : Handler.Sound event (locked dest (.startSearch dest)
      (.op (.beginWait dest) fun _ _ => .ret .waits)) n)
    (hn : WaitsBut (insert (slotOf dest) S) n) :
    WaitsBut S ((locked dest (.startSearch dest)
      (.op (.beginWait dest) fun _ _ => .ret .waits) : Handler).exec Op.apply n).1 := by
  rcases hsound with ⟨hstart, hwait, -⟩
  exact waitsBut_apply event S _ (.beginWait dest) hwait.2 hwait.1 id
    (waitsBut_close event S n (.startSearch dest) dest _ rfl (Or.inl rfl) hstart.2 hstart.1 id hn)

/-- A fresh entry has no search behind it, so one is started. -/
theorem startOrJoin_new_waits (dest : U32) (n : Node) (e : RoutingEntry)
    (he : n.getRoutingEntry dest = some e) (hsearch : e.rreqSearch = .searchNone)
    (hsound : (startOrJoin dest true n).Sound event n)
    (hn : WaitsBut (insert (slotOf dest) S) n) :
    WaitsBut S ((startOrJoin dest true n).exec Op.apply n).1 := by
  have hstart : startOrJoin dest true n = locked dest (.startSearch dest)
      (.op (.beginWait dest) fun _ _ => .ret .waits) := by
    unfold startOrJoin
    rw [he]
    simp only [hsearch, reduceCtorEq, false_and, if_false, if_true]
  rw [hstart] at hsound ⊢
  exact start_waits dest n hsound hn

/-- An entry that was there keeps its timer, or has it cancelled for a search. -/
theorem startOrJoin_waits (dest : U32) (n : Node)
    (hsound : (startOrJoin dest false n).Sound event n)
    (hn : WaitsBut S n) : WaitsBut S ((startOrJoin dest false n).exec Op.apply n).1 := by
  unfold startOrJoin at hsound ⊢
  cases he : n.getRoutingEntry dest with
  | none => exact hn
  | some e =>
      simp only [he] at hsound ⊢
      by_cases hfailed : e.rreqSearch = .searchFailed ∧ e.status = .routeInvalid
      · rw [if_pos hfailed]
        exact hn
      · rw [if_neg hfailed] at hsound ⊢
        by_cases hjoin : e.rreqSearch = .searchSearching
        · rw [if_pos hjoin] at hsound ⊢
          exact waitsBut_exec _ n hsound ⟨id, trivial⟩ hn
        · rw [if_neg hjoin] at hsound ⊢
          rcases hsound with ⟨hstop, hstart⟩
          -- The timer is stopped, which opens the slot until the search begins.
          exact start_waits dest _ hstart
            (waitsBut_open event S n (.write dest .stopTimer) dest (Or.inl ⟨_, rfl⟩) hstop.2 hstop.1
              (waitsBut_mono (Finset.subset_insert _ _) hn))

theorem sendRreq_waits (env : Env) (dest : U32) (n : Node)
    (hsound : (sendRreq env dest).Sound event n) (hn : WaitsBut S n) :
    WaitsBut S ((sendRreq env dest).exec Op.apply n).1 := by
  rcases hsound with ⟨hcreate, hrest⟩
  simp only [] at hrest
  simp only [sendRreq, Prog.exec]
  -- A new entry has no timer yet: its slot is open until the search begins.
  cases hnew : n.isNew dest with
  | true =>
      have hopen := waitsBut_open event S n
        (.create env dest 0 .seqInvalid 0 0 (toU32 myRouteTimeout)) dest (Or.inr ⟨_, rfl, rfl⟩)
        hcreate.2 hcreate.1 (waitsBut_mono (Finset.subset_insert _ _) hn)
      rw [hnew] at hrest
      exact startOrJoin_new_waits dest _ _
        (fresh_of_isNew env dest 0 .seqInvalid 0 0 (toU32 myRouteTimeout) n hnew) rfl hrest hopen
  | false =>
      rw [hnew, create_of_found env _ _ _ _ _ _ n hnew] at hrest
      rw [create_of_found env _ _ _ _ _ _ n hnew]
      exact startOrJoin_waits dest n hrest hn

theorem outgoingMessage_waits (env : Env) (dest : U32) (n : Node)
    (hsound : (outgoingMessage env dest).Sound event n) (hn : WaitsBut S n) :
    WaitsBut S ((outgoingMessage env dest).exec Op.apply n).1 := by
  simp only [outgoingMessage, Handler.Sound, Prog.Meets, Prog.exec] at hsound ⊢
  split at hsound
  · rw [if_pos ‹_›]
    exact hn
  · rw [if_neg ‹_›]
    split at hsound
    · exact sendRreq_waits env dest n hsound hn
    · split at hsound
      · rw [if_pos ‹_›]
        exact waitsBut_exec _ n hsound ⟨id, trivial⟩ hn
      · rw [if_neg ‹_›]
        split at hsound
        · rw [if_pos ‹_›]
          exact hn
        · rw [if_neg ‹_›]
          split at hsound
          · rw [if_pos ‹_›]
            -- The route is broken first, which sets its timer, then searched for.
            rcases hsound with ⟨hbreak, hrest⟩
            exact sendRreq_waits env dest _ hrest
              (waitsBut_apply event S n _ hbreak.2 hbreak.1 id hn)
          · rw [if_neg ‹_›]
            exact sendRreq_waits env dest n hsound hn

end Handlers

/-- The operations of an event that installs nothing open nothing. -/
theorem not_opens_of_guard (event : Event) (hevent : event.installs = false) (o : Op) (n : Node)
    (hguard : o.Guard event n) : ¬ o.Opens := by
  intro hopens
  cases o with
  | create => exact absurd (hevent.symm.trans hguard.1) nofun
  | searchFound ip =>
      rcases hguard with ⟨s, m, rfl, -⟩
      exact absurd hevent nofun
  | write ip w =>
      cases w with
      | stopTimer =>
          rw [show event = .outgoing ip from hguard] at hevent
          exact absurd hevent nofun
      | timer | precursor | searchNone | forgetRreqId => exact hopens
  | _ => exact hopens

/-- Between steps every entry waits, under ids in order and an address that is not
    zero. -/
structure TimersInv (n : Node) : Prop where
  address : n.ipAddress ≠ 0
  known : ThreadsKnown n
  waits : WaitsBut ∅ n

theorem handler_sound (n : Node) (input : Input) (h : ThreadsKnown n) :
    input.handler.Sound input.event n :=
  Prog.Meets.with_invariant ThreadsKnown (fun o n hn _ => threadsKnown_apply n o hn) input.handler n
    h (handler_guard n input)

/-- Every step ends with every entry waiting. -/
theorem step_waits (n : Node) (input : Input) (h : TimersInv n) : WaitsBut ∅ (step n input) := by
  have hsound := handler_sound n input h.known
  -- Only these three events open a slot: a request, a reply and an outgoing packet.
  have hquiet : input.event.installs = false → WaitsBut ∅ (step n input) := fun hevent =>
    waitsBut_exec input.handler n hsound
      (Prog.Meets.imp (fun o n hg => not_opens_of_guard input.event hevent o n hg) _ n
        (handler_guard n input)) h.waits
  rcases input with ⟨env, event⟩
  cases event with
  | control src message =>
      cases message with
      | rerr m destPairs => exact hquiet rfl
      | rreq m =>
          simp only [Input.handler, incomingControlMessage, Handler.Sound, Prog.Meets] at hsound
          rw [step_rreq]
          split
          · exact h.waits
          · rw [if_neg ‹_›] at hsound
            exact recvRreq_waits env src m n hsound h.waits
      | rrep m =>
          simp only [Input.handler, incomingControlMessage, Handler.Sound, Prog.Meets] at hsound
          rw [step_rrep]
          split
          · exact h.waits
          · rw [if_neg ‹_›] at hsound
            exact recvRrep_waits env src m n hsound h.address h.waits
  | outgoing dest => exact outgoingMessage_waits env dest n hsound h.waits
  | data | forwarded | search | wait | expire | rreqIdExpire | hello => exact hquiet rfl

theorem step_timersInv (n : Node) (input : Input) (h : TimersInv n) : TimersInv (step n input) where
  address := by
    rw [step_ipAddress]
    exact h.address
  known := Prog.exec_invariant Op.apply (fun _ _ => True) ThreadsKnown
    (fun o n hn _ => threadsKnown_apply n o hn) input.handler n h.known
    (Prog.meets_of_forall Op.apply (fun _ _ => trivial) _ n)
  waits := step_waits n input h

/-! ### The thread sets the timer -/

/-- How many rounds a thread has left at most: its rings, its retries and the round in
    which it gives up. -/
def SearchStage.rounds : SearchStage → Nat
  | starting => 14
  | ring _ ttl => 4 + (9 - ttl.toNat)
  | retry _ i => 1 + (3 - i)

/-- The search thread runs one round in each of these surroundings. -/
def searchRounds (id : Nat) (envs : List Env) : List Input :=
  envs.map fun env => { env := env, event := .search id }

/-- The thread that runs under an id. -/
def Node.threadOf (id : Nat) (n : Node) : Option SearchThread := n.threads.find? fun t => t.id = id

/-- The entry of the slot has a timer. -/
def TimerAt (i : Fin 256) (n : Node) : Prop :=
  ∃ e, n.routes.slots i = some e ∧ e.expirationThread = true

/-- The thread is over and has left the entry a timer, or it goes on with fewer
    rounds left. -/
structure Progresses (id : Nat) (t : SearchThread) (n : Node) : Prop where
  entry : ∃ e, n.routes.slots (slotOf t.dest) = some e
  ahead : (n.threadOf id = none ∧ TimerAt (slotOf t.dest) n) ∨
    ∃ stage, n.threadOf id = some { t with stage := stage } ∧ stage.rounds < t.stage.rounds

section Rounds

variable (env : Env) (id : Nat) (t : SearchThread) (n : Node)

/-- The thread sends its request and moves on. -/
theorem sendRreq_progresses (rreq : RreqHeader) (ttl : BitVec 11) (stage : SearchStage)
    (hfind : n.threadOf id = some t) (hentry : ∃ e, n.routes.slots (slotOf t.dest) = some e)
    (hless : stage.rounds < t.stage.rounds) :
    Progresses id t ((Op.sendRreq t.id rreq ttl stage).apply n) := by
  have hid : t.id = id := by simpa only [decide_eq_true_eq] using List.find?_some hfind
  refine ⟨hentry, Or.inr ⟨stage, ?_, hless⟩⟩
  unfold Node.threadOf at hfind ⊢
  simp only [Op.apply, Node.call, Node.moveThread]
  rw [List.find?_map]
  have hsame : ((fun u : SearchThread => decide (u.id = id)) ∘ fun u : SearchThread =>
      if u.id = t.id then { u with stage := stage } else u) = fun u => decide (u.id = id) := by
    funext u
    simp only [Function.comp]
    split <;> rfl
  rw [hsame, hfind, Option.map_some, if_pos rfl]

/-- The thread gives up. -/
theorem searchFailed_progresses (hfind : n.threadOf id = some t)
    (hentry : ∃ e, n.routes.slots (slotOf t.dest) = some e) :
    Progresses id t ((Op.searchFailed env t.id t.dest).apply n) := by
  have hid : t.id = id := by simpa only [decide_eq_true_eq] using List.find?_some hfind
  rcases hentry with ⟨e, he⟩
  have hslot : ((Op.searchFailed env t.id t.dest).apply n).routes.slots (slotOf t.dest) =
      some (e.searchFailed env) := by
    rw [apply_slots]
    simp only [Op.effect, Effect.slot, if_true, he, Option.map_some]
  refine ⟨⟨_, hslot⟩, Or.inl ⟨?_, _, hslot, rfl⟩⟩
  unfold Node.threadOf
  rw [List.find?_eq_none]
  intro u hu
  have hne := (pthreadCancel_threads t.id _ u hu).2
  rw [hid] at hne
  simpa only [decide_eq_true_eq] using hne

theorem retryStep_progresses (rreq : RreqHeader) (k : Nat) (hfind : n.threadOf id = some t)
    (hentry : ∃ e, n.routes.slots (slotOf t.dest) = some e)
    (hrounds : 1 + (3 - k) ≤ t.stage.rounds) :
    Progresses id t ((retryStep env t rreq k).exec Op.apply n).1 := by
  unfold retryStep
  by_cases hk : k ≤ rreqRetries
  · rw [if_pos hk]
    refine sendRreq_progresses id t n rreq _ _ hfind hentry ?_
    have htwo : k ≤ 2 := hk
    show 1 + (3 - (k + 1)) < t.stage.rounds
    omega
  · rw [if_neg hk]
    exact searchFailed_progresses env id t n hfind hentry

theorem ringStep_progresses (rreq : RreqHeader) (ttl : U32) (hfind : n.threadOf id = some t)
    (hentry : ∃ e, n.routes.slots (slotOf t.dest) = some e)
    (hrounds : 4 + (9 - ttl.toNat) ≤ t.stage.rounds) :
    Progresses id t ((ringStep env t rreq ttl).exec Op.apply n).1 := by
  unfold ringStep
  by_cases httl : ttl ≤ ttlThreshold
  · rw [if_pos httl]
    refine sendRreq_progresses id t n rreq _ _ hfind hentry ?_
    have hseven : ttl.toNat ≤ 7 := httl
    have hinc : ttlIncrement.toNat = 2 := by decide
    show 4 + (9 - (ttl + ttlIncrement).toNat) < t.stage.rounds
    rw [BitVec.toNat_add, hinc]
    omega
  · rw [if_neg httl]
    exact retryStep_progresses env id t n rreq 0 hfind hentry (by omega)

/-- One round of a thread whose entry is there. -/
theorem search_progresses (hfind : n.threadOf id = some t)
    (hentry : ∃ e, n.routes.slots (slotOf t.dest) = some e) :
    Progresses id t (step n { env := env, event := .search id }) := by
  show Progresses id t ((searchThreadStep env id).exec Op.apply n).1
  simp only [searchThreadStep, Prog.exec]
  rw [show n.threads.find? (fun t => decide (t.id = id)) = some t from hfind]
  simp only []
  -- Each stage has fewer rounds left than the last, whatever the thread finds.
  cases hstage : t.stage with
  | starting =>
      rcases hentry with ⟨e, he⟩
      simp only [Prog.exec]
      rw [show (Op.incrementSequenceNum.apply n).getRoutingEntry t.dest = some e from he]
      refine ringStep_progresses env id t (Op.incrementSequenceNum.apply n) _ _ hfind ⟨e, he⟩ ?_
      rw [hstage]
      simp only [SearchStage.rounds]
      omega
  | ring rreq ttl =>
      refine ringStep_progresses env id t n rreq ttl hfind hentry ?_
      rw [hstage]
      exact Nat.le_refl _
  | retry rreq k =>
      refine retryStep_progresses env id t n rreq k hfind hentry ?_
      rw [hstage]
      exact Nat.le_refl _

end Rounds

/-- Rounds of a thread that is over do nothing. -/
theorem searchRounds_over (id : Nat) (n : Node) (h : n.threadOf id = none) (envs : List Env) :
    run step n (searchRounds id envs) = n := by
  induction envs with
  | nil => rfl
  | cons env envs ih =>
      have hstep : step n { env := env, event := .search id } = n := by
        show ((searchThreadStep env id).exec Op.apply n).1 = n
        simp only [searchThreadStep, Prog.exec]
        rw [show n.threads.find? (fun t => decide (t.id = id)) = none from h]
        rfl
      rw [searchRounds, List.map_cons, run_cons, hstep]
      exact ih

/-- A search thread left to run for its rounds gives the entry a timer. -/
theorem thread_sets_timer (id : Nat) (rounds : Nat) (t : SearchThread) (n : Node)
    (hfind : n.threadOf id = some t) (hentry : ∃ e, n.routes.slots (slotOf t.dest) = some e)
    (hrounds : t.stage.rounds ≤ rounds) (envs : List Env) (hlength : rounds ≤ envs.length) :
    TimerAt (slotOf t.dest) (run step n (searchRounds id envs)) := by
  induction rounds generalizing t n envs with
  | zero =>
      -- A thread always has a round left.
      exfalso
      cases hstage : t.stage with
      | starting | ring | retry =>
          rw [hstage] at hrounds
          simp only [SearchStage.rounds] at hrounds
          omega
  | succ rounds ih =>
      cases envs with
      | nil => exact absurd hlength (Nat.not_succ_le_zero _)
      | cons env envs =>
          have hround := search_progresses env id t n hfind hentry
          rw [searchRounds, List.map_cons, run_cons]
          rcases hround.ahead with ⟨hover, htimer⟩ | ⟨stage, hnext, hless⟩
          · have hrest := searchRounds_over id _ hover envs
            unfold searchRounds at hrest
            rw [hrest]
            exact htimer
          · exact ih { t with stage := stage } _ hnext hround.entry (by simp only []; omega) envs
              (Nat.le_of_succ_le_succ hlength)

/-- In every state a run from start-up reaches, with an address that is not zero, every
    entry has a running timer or names a live search thread that works for its slot
    and, left to run, sets the timer. -/
theorem no_entry_immortal (ip bcast : U32) (hello : Nat → Byte) (hip : ip ≠ 0)
    (inputs : List Input) (i : Fin 256) (e : RoutingEntry)
    (he : (run step (Node.boot ip bcast hello) inputs).routes.slots i = some e) :
    e.expirationThread = true ∨
      ∃ t ∈ (run step (Node.boot ip bcast hello) inputs).threads, t.id = e.rreqMessageSender ∧
        slotOf t.dest = i ∧ ∃ rounds, ∀ envs : List Env, rounds ≤ envs.length →
          TimerAt i (run step (run step (Node.boot ip bcast hello) inputs)
            (searchRounds t.id envs)) := by
  have hstart : TimersInv (Node.boot ip bcast hello) :=
    ⟨hip, boot_threadsKnown ip bcast hello,
      fun i e _ he => absurd he (Node.boot_slots_ne ip bcast hello i e)⟩
  have hinv := run_invariant step (fun _ _ => True) TimersInv
    (fun n input hn _ => step_timersInv n input hn) _ inputs hstart
    (allSteps_of_forall step (fun _ _ => trivial) _ inputs)
  generalize run step (Node.boot ip bcast hello) inputs = n at hinv he ⊢
  rcases hinv.waits i e (Finset.notMem_empty i) he with htimer | ⟨t, ht, hid, hslot⟩
  · exact Or.inl htimer
  · -- Of the threads with this id the first one runs; it has the same destination.
    have hsome : (n.threadOf t.id).isSome = true := by
      unfold Node.threadOf
      rw [List.find?_isSome]
      exact ⟨t, ht, decide_eq_true rfl⟩
    rcases Option.isSome_iff_exists.mp hsome with ⟨u, hu⟩
    have huid : u.id = t.id := by simpa only [decide_eq_true_eq] using List.find?_some hu
    have hudest : slotOf u.dest = i := by
      rw [hinv.known.unique u (List.mem_of_find?_eq_some hu) t ht huid]
      exact hslot
    refine Or.inr ⟨t, ht, hid, hslot, u.stage.rounds, fun envs hlength => ?_⟩
    have htimer := thread_sets_timer t.id u.stage.rounds u n hu ⟨e, hudest.symm ▸ he⟩
      (Nat.le_refl _) envs hlength
    rw [hudest] at htimer
    exact htimer

/-- An entry whose search has just begun. -/
theorem no_entry_immortal_search : ∃ e,
    (step (Node.boot 0x01000000 0xFFFFFFFF (fun _ => 0))
      { env := .clear, event := .outgoing 0x03000000 }).routes.slots 3 = some e ∧
    (e.expirationThread = true ∨ ∃ t ∈ (step (Node.boot 0x01000000 0xFFFFFFFF (fun _ => 0))
      { env := .clear, event := .outgoing 0x03000000 }).threads, t.id = e.rreqMessageSender) := by
  refine ⟨_, rfl, ?_⟩
  rcases no_entry_immortal 0x01000000 0xFFFFFFFF (fun _ => 0) (by decide)
    [{ env := .clear, event := .outgoing 0x03000000 }] 3 _ rfl with htimer | ⟨t, ht, hid, -⟩
  · exact Or.inl htimer
  · exact Or.inr ⟨t, ht, hid⟩

end OpenManet
