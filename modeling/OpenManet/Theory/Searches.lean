import OpenManet.Theory.Guards

/-!
# Searches and the Entries They Search For

`send_rreq` cancels the timer of the entry it searches for and marks the entry
`SEARCH_SEARCHING`; the search thread and the waiting calls hold on to the entry
from then on. Only an expiration removes an entry, so what keeps the entry in the
table is that no timer runs for it. Nothing but the cancelled timer says so: any
handler that starts a timer on the entry while the search goes on brings it back.

`SearchInv` is what holds as long as that does not happen. Besides the timer it
ties every search thread to the entry it was started for, which is what makes
cancelling a thread go together with publishing an outcome.

Two more things can go wrong, and `SearchOk` names all three. A call that leaves
its loop late may write `SEARCH_NONE` over a search another call has started. And
a call still in its loop when the search is over reads the entry once more: the
timer the outcome has brought may run out before it looks. That an entry stays
while it is searched for is no condition, but what the timers that are not started
come to.

## Main definitions

* `SearchInv`: Searching entries have no timer, and threads belong to them.
* `SearchOk`: The three things that do not happen.
* `SearchSafe`: What a step leaves to the search.

## Theorems

* `searchInv_mono`: It stays where entries, threads and calls stay what they were.
* `searchInv_replaced`: It stays where a search of one entry begins or ends.
* `apply_searchInv`: An operation keeps the invariant.
* `step_search_safe`: In a run under the condition every step is safe.
* `not_search_safe_hello`: A hello from the node searched for is enough to break it.
-/

namespace OpenManet

/-- The entry for the address, if there is one, is not being searched for. -/
def NotSearching (ip : U32) (n : Node) : Prop :=
  ∀ e, n.getRoutingEntry ip = some e → e.rreqSearch ≠ .searchSearching

instance (ip : U32) (n : Node) : Decidable (NotSearching ip n) := decidableFound _ _

/-- No timer is started on an entry searched for, no `SEARCH_NONE` is written over
    a search, and no timer runs out for an entry whose search is over before the calls in
    their loop have looked. -/
def SearchOk : Op → Node → Prop
  | .previousHop _ ip _ _, n => NotSearching ip n
  | .reverseRoute _ _ m _, n => NotSearching m.srcIp n
  | .forwardRoute _ _ m _, n => NotSearching m.destIp n
  | .hello _ m new, n =>
    ∀ e, n.getRoutingEntry m.destIp = some e → takesHello m new e →
      e.rreqSearch ≠ .searchSearching
  | .breakRoute _ ip _, n => NotSearching ip n
  | .linkBreak _ ip, n => NotSearching ip n
  | .outgoingBreak _ ip, n => NotSearching ip n
  | .write ip (.timer _ _), n => NotSearching ip n
  | .write ip .searchNone, n => NotSearching ip n
  | .removeEntry ip, n =>
    NotSearching ip n → ∀ w ∈ n.waiters, w.stage = .waiting → slotOf w.dest ≠ slotOf ip
  | _, _ => True

instance (o : Op) (n : Node) : Decidable (SearchOk o n) :=
  match o with
  | .previousHop _ ip _ _ | .breakRoute _ ip _ | .linkBreak _ ip | .outgoingBreak _ ip
  | .write ip (.timer ..) | .write ip .searchNone => inferInstanceAs (Decidable (NotSearching ip n))
  | .reverseRoute _ _ m _ => inferInstanceAs (Decidable (NotSearching m.srcIp n))
  | .forwardRoute _ _ m _ => inferInstanceAs (Decidable (NotSearching m.destIp n))
  | .hello _ m new => inferInstanceAs (Decidable (∀ e, n.getRoutingEntry m.destIp = some e →
      takesHello m new e → e.rreqSearch ≠ .searchSearching))
  | .removeEntry ip => inferInstanceAs (Decidable (NotSearching ip n →
      ∀ w ∈ n.waiters, w.stage = .waiting → slotOf w.dest ≠ slotOf ip))
  | .write _ .stopTimer | .write _ (.precursor _) | .write _ .forgetRreqId
  | .create .. | .searchFound _ | .activate _ | .expireRoute .. | .startSearch _ | .beginWait _
  | .moveWaiter .. | .moveHello _ | .incrementSequenceNum | .writeSequenceNum _ | .sendRreq ..
  | .searchFailed .. | .sendUnicast .. | .sendBroadcast _ => isTrue trivial

/-- What holds between searches, their threads and their entries. -/
structure SearchInv (n : Node) : Prop where
  /-- No timer runs for an entry searched for. -/
  timer : ∀ i e, n.routes.slots i = some e → e.rreqSearch = .searchSearching →
    e.expirationThread = false
  /-- An entry that names a thread is searched for. -/
  sender : ∀ i e, n.routes.slots i = some e → e.rreqMessageSender ≠ 0 →
    e.rreqSearch = .searchSearching
  pos : 0 < n.nextThread
  bound : ∀ i e, n.routes.slots i = some e → e.rreqMessageSender < n.nextThread
  /-- Two entries do not name the same thread. -/
  distinct : ∀ i j e e', n.routes.slots i = some e → n.routes.slots j = some e' →
    e.rreqMessageSender ≠ 0 → e'.rreqMessageSender = e.rreqMessageSender → i = j
  /-- A thread is the one its entry names. -/
  threads : ∀ t ∈ n.threads, t.id ≠ 0 ∧ ∃ e, n.routes.slots (slotOf t.dest) = some e ∧
    e.rreqMessageSender = t.id
  /-- The entry of a call in its loop is there. -/
  waiting : ∀ w ∈ n.waiters, w.stage = .waiting → ∃ e, n.routes.slots (slotOf w.dest) = some e

/-- As far as searches go the entry is as it was. -/
structure SameSearch (e e' : RoutingEntry) : Prop where
  searching : e'.rreqSearch = .searchSearching ↔ e.rreqSearch = .searchSearching
  rreqMessageSender : e'.rreqMessageSender = e.rreqMessageSender
  timer : e.rreqSearch = .searchSearching → e'.expirationThread = true → e.expirationThread = true

theorem sameSearch_refl (e : RoutingEntry) : SameSearch e e := ⟨Iff.rfl, rfl, fun _ h => h⟩

/-- No search is new, and no call is in its loop that was not or whose entry is
    not there. -/
structure NoNewSearch (n n' : Node) : Prop where
  threads : ∀ t ∈ n'.threads, ∃ t₀ ∈ n.threads, t₀.id = t.id ∧ t₀.dest = t.dest
  nextThread : n'.nextThread = n.nextThread
  waiters : ∀ w ∈ n'.waiters, w.stage = .waiting →
    w ∈ n.waiters ∨ ∃ e, n.routes.slots (slotOf w.dest) = some e

theorem SameThreads.noNewSearch {n n' : Node} (h : SameThreads n n') : NoNewSearch n n' where
  threads := fun t ht => ⟨t, h.threads ▸ ht, rfl, rfl⟩
  nextThread := h.nextThread
  waiters := fun _ hw _ => Or.inl (h.waiters ▸ hw)

/-! ### Operations that leave the searches as they are -/

/-- Entries stay as they were as far as searches go, new ones have none, and no
    search is new. -/
theorem searchInv_mono {n n' : Node} (h : SearchInv n) (hsame : NoNewSearch n n')
    (hback : ∀ i e', n'.routes.slots i = some e' →
      (∃ e, n.routes.slots i = some e ∧ SameSearch e e') ∨
        (e'.rreqMessageSender = 0 ∧ e'.rreqSearch ≠ .searchSearching))
    (hkeep : ∀ i e, n.routes.slots i = some e →
      ∃ e', n'.routes.slots i = some e' ∧ e'.rreqMessageSender = e.rreqMessageSender) :
    SearchInv n' where
  timer := by
    intro i e' he' hsearch
    rcases hback i e' he' with ⟨e, he, hss⟩ | ⟨-, hidle⟩
    · -- A timer that runs now ran before, when the entry was searched for already.
      have hold : e.rreqSearch = .searchSearching := hss.searching.mp hsearch
      have hoff := h.timer i e he hold
      exact Bool.eq_false_of_not_eq_true
        (fun hon => absurd (hoff.symm.trans (hss.timer hold hon)) nofun)
    · exact absurd hsearch hidle
  sender := by
    intro i e' he' hne
    rcases hback i e' he' with ⟨e, he, hss⟩ | ⟨hzero, -⟩
    · exact hss.searching.mpr (h.sender i e he (hss.rreqMessageSender ▸ hne))
    · exact absurd hzero hne
  pos := hsame.nextThread ▸ h.pos
  bound := by
    intro i e' he'
    rw [hsame.nextThread]
    rcases hback i e' he' with ⟨e, he, hss⟩ | ⟨hzero, -⟩
    · rw [hss.rreqMessageSender]
      exact h.bound i e he
    · rw [hzero]
      exact h.pos
  distinct := by
    intro i j e e' he he' hne heq
    rcases hback i e he with ⟨a, ha, hsa⟩ | ⟨hzero, -⟩
    · rcases hback j e' he' with ⟨b, hb, hsb⟩ | ⟨hzero, -⟩
      · rw [hsa.rreqMessageSender] at hne heq
        rw [hsb.rreqMessageSender] at heq
        exact h.distinct i j a b ha hb hne heq
      · exact absurd (heq.symm.trans hzero) hne
    · exact absurd hzero hne
  threads := by
    intro t ht
    rcases hsame.threads t ht with ⟨t₀, ht₀, hid₀, hdest₀⟩
    rcases h.threads t₀ ht₀ with ⟨hid, e, he, hsender⟩
    rw [hid₀] at hid hsender
    rw [hdest₀] at he
    rcases hkeep _ e he with ⟨e', he', hkept⟩
    exact ⟨hid, e', he', hkept.trans hsender⟩
  waiting := by
    intro w hw hstage
    have hthere : ∃ e, n.routes.slots (slotOf w.dest) = some e := by
      rcases hsame.waiters w hw hstage with hold | hthere
      · exact h.waiting w hold hstage
      · exact hthere
    rcases hthere with ⟨e, he⟩
    rcases hkeep _ e he with ⟨e', he', -⟩
    exact ⟨e', he'⟩

/-- Nothing is written that a search depends on. -/
theorem searchInv_keep {n n' : Node} (h : SearchInv n) (hsame : NoNewSearch n n')
    (hslots : ∀ i, n'.routes.slots i = n.routes.slots i) : SearchInv n' :=
  searchInv_mono h hsame
    (fun i e' he' => Or.inl ⟨e', (hslots i).symm.trans he', sameSearch_refl e'⟩)
    (fun i e he => ⟨e, (hslots i).trans he, rfl⟩)

/-- One entry is written to, and stays as it was as far as searches go. -/
theorem searchInv_update {n n' : Node} (h : SearchInv n) (hsame : NoNewSearch n n') (ip : U32)
    (f : RoutingEntry → RoutingEntry)
    (hslots : ∀ i, n'.routes.slots i =
      if i = slotOf ip then (n.routes.slots i).map f else n.routes.slots i)
    (hf : ∀ e, n.getRoutingEntry ip = some e → SameSearch e (f e)) : SearchInv n' := by
  refine searchInv_mono h hsame (fun i e' he' => ?_) (fun i e he => ?_)
  · rw [hslots] at he'
    by_cases hi : i = slotOf ip
    · rw [if_pos hi] at he'
      rcases Option.map_eq_some_iff.mp he' with ⟨e, he, rfl⟩
      exact Or.inl ⟨e, he, hf e (by rw [Node.getRoutingEntry_eq, ← hi]; exact he)⟩
    · rw [if_neg hi] at he'
      exact Or.inl ⟨e', he', sameSearch_refl e'⟩
  · rw [hslots]
    by_cases hi : i = slotOf ip
    · rw [if_pos hi, he]
      rw [hi] at he
      exact ⟨f e, rfl, (hf e he).rreqMessageSender⟩
    · rw [if_neg hi]
      exact ⟨e, he, rfl⟩

theorem searchInv_op {n : Node} (h : SearchInv n) (o : Op) (hleaves : o.LeavesThreads) (ip : U32)
    (f : RoutingEntry → RoutingEntry) (heff : o.effect n = .update ip f)
    (hf : ∀ e, n.getRoutingEntry ip = some e → SameSearch e (f e)) : SearchInv (o.apply n) := by
  refine searchInv_update h (apply_sameThreads n o hleaves).noNewSearch ip f (fun i => ?_) hf
  rw [apply_slots, heff]
  rfl

/-! ### Operations that begin or end a search -/

/-- One entry is replaced by one that names no thread, or one that is new, and the
    thread it named before is gone. -/
theorem searchInv_replaced {n n' : Node} (h : SearchInv n) (ip : U32) (e e₁ : RoutingEntry)
    (he : n.getRoutingEntry ip = some e)
    (hslots : ∀ i, n'.routes.slots i = if i = slotOf ip then some e₁ else n.routes.slots i)
    (htimer : e₁.rreqSearch = .searchSearching → e₁.expirationThread = false)
    (hsender : e₁.rreqMessageSender ≠ 0 → e₁.rreqSearch = .searchSearching)
    (hnext : n.nextThread ≤ n'.nextThread) (hbound : e₁.rreqMessageSender < n'.nextThread)
    (hnew : e₁.rreqMessageSender ≠ 0 → n.nextThread ≤ e₁.rreqMessageSender)
    (hthreads : ∀ t ∈ n'.threads,
      (t.id ≠ e.rreqMessageSender ∧ ∃ t₀ ∈ n.threads, t₀.id = t.id ∧ t₀.dest = t.dest) ∨
        (t.id ≠ 0 ∧ t.dest = ip ∧ e₁.rreqMessageSender = t.id))
    (hwaiters : ∀ w ∈ n'.waiters, w.stage = .waiting →
      w ∈ n.waiters ∨ ∃ a, n.routes.slots (slotOf w.dest) = some a) : SearchInv n' := by
  rw [Node.getRoutingEntry_eq] at he
  have hback : ∀ i a, n'.routes.slots i = some a →
      (i = slotOf ip ∧ a = e₁) ∨ (i ≠ slotOf ip ∧ n.routes.slots i = some a) := by
    intro i a ha
    rw [hslots] at ha
    by_cases hi : i = slotOf ip
    · rw [if_pos hi, Option.some.injEq] at ha
      exact Or.inl ⟨hi, ha.symm⟩
    · rw [if_neg hi] at ha
      exact Or.inr ⟨hi, ha⟩
  -- A thread the new entry names is above all that were named before.
  have hapart : ∀ j b, n.routes.slots j = some b → e₁.rreqMessageSender ≠ 0 →
      b.rreqMessageSender ≠ e₁.rreqMessageSender := fun j b hb hne =>
    Nat.ne_of_lt (lt_of_lt_of_le (h.bound j b hb) (hnew hne))
  constructor
  case timer =>
    intro i a ha hsearch
    rcases hback i a ha with ⟨-, rfl⟩ | ⟨-, hold⟩
    · exact htimer hsearch
    · exact h.timer i a hold hsearch
  case sender =>
    intro i a ha hne
    rcases hback i a ha with ⟨-, rfl⟩ | ⟨-, hold⟩
    · exact hsender hne
    · exact h.sender i a hold hne
  case pos => exact lt_of_lt_of_le h.pos hnext
  case bound =>
    intro i a ha
    rcases hback i a ha with ⟨-, rfl⟩ | ⟨-, hold⟩
    · exact hbound
    · exact lt_of_lt_of_le (h.bound i a hold) hnext
  case distinct =>
    intro i j a b ha hb hne heq
    rcases hback i a ha with ⟨rfl, rfl⟩ | ⟨-, holda⟩
    · rcases hback j b hb with ⟨rfl, -⟩ | ⟨-, holdb⟩
      · rfl
      · exact absurd heq (hapart j b holdb hne)
    · rcases hback j b hb with ⟨-, rfl⟩ | ⟨-, holdb⟩
      · exact absurd heq.symm (hapart i a holda (fun hzero => hne (heq.symm.trans hzero)))
      · exact h.distinct i j a b holda holdb hne heq
  case threads =>
    intro t ht
    rcases hthreads t ht with ⟨hgone, t₀, ht₀, hid₀, hdest₀⟩ | ⟨hid, hdest, hnames⟩
    · rcases h.threads t₀ ht₀ with ⟨hid, a, ha, hnames⟩
      rw [hid₀] at hid hnames
      rw [hdest₀] at ha
      have hi : slotOf t.dest ≠ slotOf ip := by
        intro hi
        rw [hi, he, Option.some.injEq] at ha
        exact hgone (ha ▸ hnames.symm)
      exact ⟨hid, a, by rw [hslots, if_neg hi]; exact ha, hnames⟩
    · exact ⟨hid, e₁, by rw [hslots, hdest, if_pos rfl], hnames⟩
  case waiting =>
    intro w hw hstage
    have hthere : ∃ a, n.routes.slots (slotOf w.dest) = some a := by
      rcases hwaiters w hw hstage with hold | hthere
      · exact h.waiting w hold hstage
      · exact hthere
    rcases hthere with ⟨a, ha⟩
    by_cases hi : slotOf w.dest = slotOf ip
    · exact ⟨e₁, by rw [hslots, if_pos hi]⟩
    · exact ⟨a, by rw [hslots, if_neg hi]; exact ha⟩

/-- Writing to the entry for an address, seen slot by slot. -/
theorem slots_replaced {n n' : Node} (ip : U32) (f : RoutingEntry → RoutingEntry)
    (e : RoutingEntry) (he : n.getRoutingEntry ip = some e)
    (hslots : ∀ i, n'.routes.slots i =
      if i = slotOf ip then (n.routes.slots i).map f else n.routes.slots i) (i : Fin 256) :
    n'.routes.slots i = if i = slotOf ip then some (f e) else n.routes.slots i := by
  rw [Node.getRoutingEntry_eq] at he
  rw [hslots]
  by_cases hi : i = slotOf ip
  · rw [if_pos hi, if_pos hi, hi, he, Option.map_some]
  · rw [if_neg hi, if_neg hi]

/-- The search for one entry ends: its outcome is published and its thread, if
    there is one, is gone. -/
theorem searchInv_end {n n' : Node} (h : SearchInv n) (hsame : NoNewSearch n n') (ip : U32)
    (f : RoutingEntry → RoutingEntry) (e : RoutingEntry) (he : n.getRoutingEntry ip = some e)
    (hslots : ∀ i, n'.routes.slots i =
      if i = slotOf ip then (n.routes.slots i).map f else n.routes.slots i)
    (hf : (f e).rreqMessageSender = 0 ∧ (f e).rreqSearch ≠ .searchSearching)
    (hgone : ∀ t ∈ n'.threads, t.id ≠ e.rreqMessageSender) : SearchInv n' := by
  refine searchInv_replaced h ip e (f e) he (slots_replaced ip f e he hslots)
    (fun hsearch => absurd hsearch hf.2) (fun hne => absurd hf.1 hne) hsame.nextThread.ge ?_
    (fun hne => absurd hf.1 hne) (fun t ht => Or.inl ⟨hgone t ht, hsame.threads t ht⟩)
    hsame.waiters
  rw [hf.1, hsame.nextThread]
  exact h.pos

/-- A search begins for an entry no search names and no timer runs for. -/
theorem searchInv_start {n : Node} (h : SearchInv n) (ip : U32) (e : RoutingEntry)
    (he : n.getRoutingEntry ip = some e) (htimer : e.expirationThread = false)
    (hsearch : e.rreqSearch ≠ .searchSearching) : SearchInv ((Op.startSearch ip).apply n) := by
  have hfree : e.rreqMessageSender = 0 :=
    Classical.byContradiction fun hne => hsearch (h.sender _ e he hne)
  refine searchInv_replaced h ip e (e.startSearch n.nextThread) he
    (slots_replaced ip (·.startSearch n.nextThread) e he (apply_slots n (.startSearch ip)))
    (fun _ => htimer) (fun _ => rfl) (Nat.le_succ _) (Nat.lt_succ_self _)
    (fun _ => le_refl _) ?_ (fun w hw _ => Or.inl hw)
  -- The entry has named no thread, so none of the old ones was its own.
  intro t ht
  rcases List.mem_append.mp ht with hold | hnew
  · refine Or.inl ⟨?_, t, hold, rfl, rfl⟩
    rw [hfree]
    exact (h.threads t hold).1
  · rw [List.mem_singleton] at hnew
    subst hnew
    exact Or.inr ⟨Nat.ne_of_gt h.pos, rfl, rfl⟩

/-- No search is on for an entry whose timer runs. -/
theorem SearchInv.notSearching {n : Node} (h : SearchInv n) (ip : U32) (e : RoutingEntry)
    (he : n.getRoutingEntry ip = some e) (htimer : e.expirationThread = true) :
    NotSearching ip n := by
  intro a ha hsearch
  cases he.symm.trans ha
  rw [Node.getRoutingEntry_eq] at ha
  exact absurd (htimer.symm.trans (h.timer _ _ ha hsearch)) nofun

/-- An entry whose timer runs is removed; no call is in its loop there. -/
theorem searchInv_remove {n n' : Node} (h : SearchInv n) (hsame : NoNewSearch n n') (ip : U32)
    (e : RoutingEntry) (he : n.getRoutingEntry ip = some e) (htimer : e.expirationThread = true)
    (hslots : ∀ i, n'.routes.slots i = if i = slotOf ip then none else n.routes.slots i)
    (hidle : ∀ w ∈ n'.waiters, w.stage = .waiting → slotOf w.dest ≠ slotOf ip) :
    SearchInv n' := by
  have hidleEntry := h.notSearching ip e he htimer e he
  rw [Node.getRoutingEntry_eq] at he
  -- No search is on, so no thread is named.
  have hfree : e.rreqMessageSender = 0 :=
    Classical.byContradiction fun hne => hidleEntry (h.sender _ e he hne)
  have hback : ∀ i a, n'.routes.slots i = some a → n.routes.slots i = some a := by
    intro i a ha
    rw [hslots] at ha
    by_cases hi : i = slotOf ip
    · rw [if_pos hi] at ha
      cases ha
    · rw [if_neg hi] at ha
      exact ha
  constructor
  case timer => exact fun i a ha => h.timer i a (hback i a ha)
  case sender => exact fun i a ha => h.sender i a (hback i a ha)
  case pos => exact hsame.nextThread ▸ h.pos
  case bound => exact fun i a ha => hsame.nextThread ▸ h.bound i a (hback i a ha)
  case distinct =>
    exact fun i j a b ha hb => h.distinct i j a b (hback i a ha) (hback j b hb)
  case threads =>
    intro t ht
    rcases hsame.threads t ht with ⟨t₀, ht₀, hid₀, hdest₀⟩
    rcases h.threads t₀ ht₀ with ⟨hid, a, ha, hsender⟩
    rw [hid₀] at hid hsender
    rw [hdest₀] at ha
    have hi : slotOf t.dest ≠ slotOf ip := by
      intro hi
      rw [hi, he, Option.some.injEq] at ha
      exact hid (hsender.symm.trans (ha ▸ hfree))
    exact ⟨hid, a, by rw [hslots, if_neg hi]; exact ha, hsender⟩
  case waiting =>
    intro w hw hstage
    have hthere : ∃ a, n.routes.slots (slotOf w.dest) = some a := by
      rcases hsame.waiters w hw hstage with hold | hthere
      · exact h.waiting w hold hstage
      · exact hthere
    rcases hthere with ⟨a, ha⟩
    exact ⟨a, by rw [hslots, if_neg (hidle w hw hstage)]; exact ha⟩

/-! ### Every operation -/

/-- A write to an entry that is not searched for, nor afterwards. -/
theorem sameSearch_idle {e e' : RoutingEntry} (h : e.rreqSearch ≠ .searchSearching)
    (hsearch : e'.rreqSearch ≠ .searchSearching)
    (hsender : e'.rreqMessageSender = e.rreqMessageSender) : SameSearch e e' :=
  ⟨⟨fun h' => absurd h' hsearch, fun h' => absurd h' h⟩, hsender, fun h' => absurd h' h⟩

/-- A section with a frame, on an entry that is not searched for. -/
theorem sameSearch_frame {e e' : RoutingEntry} (h : e.rreqSearch ≠ .searchSearching)
    (hframe : RouteFrame e e') : SameSearch e e' :=
  sameSearch_idle h (fun hs => h (hframe.rreqSearch.symm.trans hs)) hframe.rreqMessageSender

theorem sameSearch_hello (env : Env) (m : RrepHeader) (new : Bool) (e : RoutingEntry)
    (h : takesHello m new e → e.rreqSearch ≠ .searchSearching) :
    SameSearch e (e.hello env m new) := by
  by_cases hm : takesHello m new e
  · exact sameSearch_frame (h hm) (hello_frame env new e m)
  · rw [hello_refused env new e m hm]
    exact sameSearch_refl e

theorem sameSearch_previousHop (env : Env) (listed : U32) (new : Bool) (e : RoutingEntry)
    (h : e.rreqSearch ≠ .searchSearching) : SameSearch e (e.previousHop env listed new) := by
  rcases previousHop_eq env new e listed with ⟨t, ht⟩
  rw [ht]
  exact sameSearch_idle h h rfl

theorem sameSearch_activate (e : RoutingEntry) : SameSearch e e.activate := by
  rw [activate_eq]
  exact ⟨Iff.rfl, rfl, fun _ h => h⟩

theorem apply_searchInv_write (ip : U32) (w : Write) (n : Node) (h : SearchInv n)
    (hok : SearchOk (.write ip w) n) : SearchInv ((Op.write ip w).apply n) := by
  refine searchInv_update h (apply_sameThreads n (.write ip w) trivial).noNewSearch ip w.apply
    (apply_slots n (.write ip w)) (fun e he => ?_)
  cases w with
  | timer env ms => exact sameSearch_idle (hok e he) (hok e he) rfl
  | searchNone => exact sameSearch_idle (hok e he) nofun rfl
  | stopTimer => exact ⟨Iff.rfl, rfl, fun _ h => absurd h nofun⟩
  | precursor | forgetRreqId => exact ⟨Iff.rfl, rfl, fun _ h => h⟩

theorem apply_searchInv_found (ip : U32) (n : Node) (h : SearchInv n) :
    SearchInv ((Op.searchFound ip).apply n) := by
  cases he : n.getRoutingEntry ip with
  | none =>
      have hsame : (Op.searchFound ip).apply n = n := by
        simp only [Op.apply, Op.onEntry, he]
      rw [hsame]
      exact h
  | some e =>
      have happly : (Op.searchFound ip).apply n =
          if e.rreqMessageSender ≠ 0 then
            (n.updateEntry ip RoutingEntry.searchFound).pthreadCancel e.rreqMessageSender
          else n.updateEntry ip RoutingEntry.searchFound := by
        simp only [Op.apply, Op.onEntry, he]
      -- The thread the entry names is cancelled; when it names none there is none.
      have hthreads : ∀ t ∈ ((Op.searchFound ip).apply n).threads,
          t ∈ n.threads ∧ t.id ≠ e.rreqMessageSender := by
        intro t ht
        rw [happly] at ht
        by_cases hzero : e.rreqMessageSender ≠ 0
        · rw [if_pos hzero] at ht
          exact pthreadCancel_threads _ _ t ht
        · rw [if_neg hzero] at ht
          exact ⟨ht, not_not.mp hzero ▸ (h.threads t ht).1⟩
      have hrest : ((Op.searchFound ip).apply n).nextThread = n.nextThread ∧
          ((Op.searchFound ip).apply n).waiters = n.waiters := by
        rw [happly]
        split <;> exact ⟨rfl, rfl⟩
      exact searchInv_end h
        ⟨fun t ht => ⟨t, (hthreads t ht).1, rfl, rfl⟩, hrest.1, fun w hw _ => Or.inl (hrest.2 ▸ hw)⟩
        ip RoutingEntry.searchFound e he (apply_slots n (.searchFound ip))
        ⟨rfl, fun hs => by cases hs⟩
        (fun t ht => (hthreads t ht).2)

theorem apply_searchInv_failed (env : Env) (id : Nat) (ip : U32) (n : Node) (h : SearchInv n)
    (hthread : n.Searches id ip) : SearchInv ((Op.searchFailed env id ip).apply n) := by
  rcases hthread with ⟨t, ht, rfl, rfl⟩
  rcases h.threads t ht with ⟨-, e, he, hsender⟩
  refine searchInv_end h
    ⟨fun u hu => ⟨u, (pthreadCancel_threads t.id _ u hu).1, rfl, rfl⟩, rfl,
      fun w hw _ => Or.inl hw⟩
    t.dest (RoutingEntry.searchFailed env) e he (apply_slots n (.searchFailed env t.id t.dest))
    ⟨rfl, nofun⟩ (fun u hu => ?_)
  rw [hsender]
  exact (pthreadCancel_threads t.id _ u hu).2

theorem removeEntry_frame (ip : U32) (n : Node) :
    (∀ t ∈ ((Op.removeEntry ip).apply n).threads, t ∈ n.threads) ∧
      ((Op.removeEntry ip).apply n).nextThread = n.nextThread ∧
      ((Op.removeEntry ip).apply n).waiters = n.waiters := by
  simp only [Op.apply]
  cases n.getRoutingEntry ip with
  | none => exact ⟨fun _ h => h, rfl, rfl⟩
  | some e =>
      simp only []
      split
      · exact ⟨fun t ht => (pthreadCancel_threads _ _ t ht).1, rfl, rfl⟩
      · exact ⟨fun _ h => h, rfl, rfl⟩

theorem moveWaiter_noNewSearch (k : Nat) (stage : WaitStage) (hstage : stage ≠ .waiting)
    (n : Node) : NoNewSearch n ((Op.moveWaiter k stage).apply n) where
  threads := fun t ht => ⟨t, ht, rfl, rfl⟩
  nextThread := rfl
  waiters := by
    intro w hw hwait
    rcases List.mem_iff_getElem?.mp hw with ⟨j, hj⟩
    rw [show ((Op.moveWaiter k stage).apply n).waiters =
      n.waiters.modify k fun w => { w with stage := stage } from rfl, List.getElem?_modify] at hj
    rcases Option.map_eq_some_iff.mp hj with ⟨w₀, hw₀, rfl⟩
    by_cases hk : k = j
    · simp only [if_pos hk] at hwait
      exact absurd hwait hstage
    · simp only [if_neg hk]
      exact Or.inl (List.mem_iff_getElem?.mpr ⟨j, hw₀⟩)

theorem sendRreq_noNewSearch (id : Nat) (rreq : RreqHeader) (ttl : BitVec 11) (stage : SearchStage)
    (n : Node) : NoNewSearch n ((Op.sendRreq id rreq ttl stage).apply n) where
  threads := by
    intro t ht
    rcases List.mem_map.mp ht with ⟨t₀, ht₀, rfl⟩
    refine ⟨t₀, ht₀, ?_⟩
    by_cases hid : t₀.id = id
    · rw [if_pos hid]
      exact ⟨rfl, rfl⟩
    · rw [if_neg hid]
      exact ⟨rfl, rfl⟩
  nextThread := rfl
  waiters := fun w hw _ => Or.inl hw

/-- Every operation keeps the invariant under the condition. -/
theorem apply_searchInv (event : Event) (o : Op) (n : Node) (h : SearchInv n)
    (hguard : o.Guard event n) (hok : SearchOk o n) : SearchInv (o.apply n) := by
  cases o with
  -- A new entry names no thread and is not searched for.
  | create env ip s v hop c t =>
      have hsame := (apply_sameThreads n (.create env ip s v hop c t) trivial).noNewSearch
      refine searchInv_mono h hsame (fun i e' he' => ?_) (fun i e he => ?_)
      · rw [apply_slots] at he'
        simp only [Op.effect, Effect.slot] at he'
        split at he'
        · cases hold : n.routes.slots i with
          | none =>
              rw [hold, Option.getD_none, Option.some.injEq] at he'
              exact Or.inr (he' ▸ ⟨rfl, fun hs => by cases hs⟩)
          | some e =>
              rw [hold, Option.getD_some, Option.some.injEq] at he'
              exact Or.inl ⟨e, rfl, he' ▸ sameSearch_refl e⟩
        · exact Or.inl ⟨e', he', sameSearch_refl e'⟩
      · rw [apply_slots, he]
        simp only [Op.effect, Effect.slot, Option.getD_some, ite_self]
        exact ⟨e, rfl, rfl⟩
  | previousHop env s l new =>
      exact searchInv_op h _ trivial s _ rfl
        (fun e he => sameSearch_previousHop env l new e (hok e he))
  | reverseRoute env s m new =>
      exact searchInv_op h _ trivial m.srcIp _ rfl
        (fun e he => sameSearch_frame (hok e he) (reverseRoute_frame env s new e m))
  | hello env m new =>
      exact searchInv_op h _ trivial m.destIp _ rfl
        (fun e he => sameSearch_hello env m new e (hok e he))
  | forwardRoute env s m new =>
      exact searchInv_op h _ trivial m.destIp _ rfl
        (fun e he => sameSearch_frame (hok e he) (forwardRoute_frame env s new e m))
  | activate ip => exact searchInv_op h _ trivial ip _ rfl (fun e _ => sameSearch_activate e)
  | breakRoute env ip | linkBreak env ip | outgoingBreak env ip =>
      exact searchInv_op h _ trivial ip _ rfl
        (fun e he => sameSearch_idle (hok e he) (hok e he) rfl)
  | expireRoute env ip =>
      exact searchInv_op h _ trivial ip _ rfl (fun e _ => ⟨Iff.rfl, rfl, fun _ h => h⟩)
  | write ip w => exact apply_searchInv_write ip w n h hok
  | searchFound ip => exact apply_searchInv_found ip n h
  | searchFailed env id ip => exact apply_searchInv_failed env id ip n h hguard.2
  | startSearch ip =>
      rcases hguard with ⟨-, e, he, htimer, hsearch⟩
      exact searchInv_start h ip e he htimer hsearch
  | removeEntry ip =>
      rcases hguard with ⟨-, e, he, htimer, -⟩
      rcases removeEntry_frame ip n with ⟨hthreads, hnext, hwaiters⟩
      -- The timer runs, so the entry is not searched for, and the condition speaks of it.
      have hover := hok (h.notSearching ip e he htimer)
      exact searchInv_remove h
        ⟨fun t ht => ⟨t, hthreads t ht, rfl, rfl⟩, hnext, fun w hw _ => Or.inl (hwaiters ▸ hw)⟩
        ip e he htimer (apply_slots n (.removeEntry ip)) (fun w hw => hover w (hwaiters ▸ hw))
  | beginWait ip =>
      rcases hguard with ⟨-, e, he⟩
      refine searchInv_keep h ⟨fun t ht => ⟨t, ht, rfl, rfl⟩, rfl, fun w hw _ => ?_⟩ (fun _ => rfl)
      rcases List.mem_append.mp hw with hold | hnew
      · exact Or.inl hold
      · rw [List.mem_singleton] at hnew
        exact Or.inr ⟨e, hnew ▸ he⟩
  | moveWaiter k stage =>
      exact searchInv_keep h (moveWaiter_noNewSearch k stage hguard.2 n) (fun _ => rfl)
  | sendRreq id rreq ttl stage =>
      exact searchInv_keep h (sendRreq_noNewSearch id rreq ttl stage n) (fun _ => rfl)
  | moveHello | incrementSequenceNum | writeSequenceNum | sendUnicast | sendBroadcast =>
      exact searchInv_keep h ⟨fun t ht => ⟨t, ht, rfl, rfl⟩, rfl, fun _ hw _ => Or.inl hw⟩
        (fun _ => rfl)

/-! ### What becomes of a search in a step -/

/-- The search for an address has an outcome. -/
def Node.SearchOver (ip : U32) (n : Node) : Prop :=
  ∃ e, n.routes.slots (slotOf ip) = some e ∧
    (e.rreqSearch = .searchFound ∨ e.rreqSearch = .searchFailed)

/-- The events whose handlers end searches. -/
def Event.endsSearch : Event → Bool
  | control _ (.rrep _) | search _ => true
  | _ => false

/-- What an operation in the handler of an event leaves of searches: entries stay
    unless a timer runs out, and a thread stays or its search has an outcome,
    which lasts to the end of the handler. -/
structure SearchProgress (event : Event) (n n' : Node) : Prop where
  entries : (∀ ip, event ≠ .expire ip) → ∀ i e, n.routes.slots i = some e →
    ∃ e', n'.routes.slots i = some e'
  threads : ∀ t ∈ n.threads, (∃ t' ∈ n'.threads, t'.id = t.id ∧ t'.dest = t.dest) ∨
    (event.endsSearch = true ∧ n'.SearchOver t.dest)
  searchOver : event.endsSearch = true → ∀ ip, n.SearchOver ip → n'.SearchOver ip
  waiters : (∀ k, event ≠ .wait k) → ∀ w ∈ n.waiters, w ∈ n'.waiters

theorem searchProgress_refl (event : Event) (n : Node) : SearchProgress event n n :=
  ⟨fun _ _ e he => ⟨e, he⟩, fun t ht => Or.inl ⟨t, ht, rfl, rfl⟩, fun _ _ h => h, fun _ _ h => h⟩

theorem searchProgress_trans (event : Event) (n₁ n₂ n₃ : Node) (h : SearchProgress event n₁ n₂)
    (h' : SearchProgress event n₂ n₃) : SearchProgress event n₁ n₃ where
  entries := by
    intro hev i e he
    rcases h.entries hev i e he with ⟨e₂, he₂⟩
    exact h'.entries hev i e₂ he₂
  threads := by
    intro t ht
    rcases h.threads t ht with ⟨t₂, ht₂, hid, hdest⟩ | ⟨hends, hover⟩
    · rcases h'.threads t₂ ht₂ with ⟨t₃, ht₃, hid₃, hdest₃⟩ | ⟨hends, hover⟩
      · exact Or.inl ⟨t₃, ht₃, hid₃.trans hid, hdest₃.trans hdest⟩
      · exact Or.inr ⟨hends, hdest ▸ hover⟩
    · exact Or.inr ⟨hends, h'.searchOver hends t.dest hover⟩
  searchOver := fun hends ip hover => h'.searchOver hends ip (h.searchOver hends ip hover)
  waiters := fun hev w hw => h'.waiters hev w (h.waiters hev w hw)

/-- The write keeps an outcome that is there, or publishes one. -/
def KeepsOutcome (f : RoutingEntry → RoutingEntry) : Prop :=
  ∀ e, (e.rreqSearch = .searchFound ∨ e.rreqSearch = .searchFailed) →
    ((f e).rreqSearch = .searchFound ∨ (f e).rreqSearch = .searchFailed)

/-- The writes of a handler that ends searches keep the outcomes. -/
theorem effect_keepsOutcome (event : Event) (hends : event.endsSearch = true) (n : Node) (o : Op)
    (hguard : o.Guard event n) (ip : U32) (f : RoutingEntry → RoutingEntry)
    (heff : o.effect n = .update ip f) : KeepsOutcome f := by
  -- Most writes leave the outcome; two write one, and two need another event.
  by_cases hkeeps : o.KeepsSearch
  · exact fun e houtcome => (effect_rreqSearch n o hkeeps ip f heff e).symm ▸ houtcome
  cases o with
  | searchFound ip =>
      cases heff
      exact fun e _ => Or.inl rfl
  | searchFailed env id ip =>
      cases heff
      exact fun e _ => Or.inr rfl
  | startSearch ip =>
      rw [hguard.1] at hends
      exact absurd hends nofun
  | write ip w =>
      cases heff
      cases w with
      | searchNone =>
          rcases hguard with ⟨k, hk⟩
          rw [hk] at hends
          exact absurd hends nofun
      | timer | stopTimer | precursor | forgetRreqId => exact absurd trivial hkeeps
  | removeEntry => cases heff
  | _ => exact absurd trivial hkeeps

/-- Only a timer that runs out empties a slot. -/
theorem apply_entries_stay (event : Event) (hev : ∀ ip, event ≠ .expire ip) (n : Node) (o : Op)
    (hguard : o.Guard event n) (i : Fin 256) (e : RoutingEntry)
    (he : n.routes.slots i = some e) : ∃ e', (o.apply n).routes.slots i = some e' := by
  have hkept : ∀ ip, o.effect n = .remove ip → i ≠ slotOf ip := by
    intro ip heff
    cases o with
    | removeEntry ip' => exact absurd hguard.1 (hev ip')
    | _ => cases heff
  rcases entry_fate n o i e he hkept with hsame | ⟨ip, f, -, -, hwritten⟩
  · exact ⟨e, hsame⟩
  · exact ⟨f e, hwritten⟩

theorem apply_over (event : Event) (hends : event.endsSearch = true) (n : Node) (o : Op)
    (hguard : o.Guard event n) (ip : U32) (hover : n.SearchOver ip) :
    (o.apply n).SearchOver ip := by
  rcases hover with ⟨e, he, houtcome⟩
  have hkept : ∀ ip', o.effect n = .remove ip' → slotOf ip ≠ slotOf ip' := by
    intro ip' heff
    cases o with
    | removeEntry ip'' =>
        rw [hguard.1] at hends
        exact absurd hends Bool.false_ne_true
    | _ => cases heff
  rcases entry_fate n o _ e he hkept with hsame | ⟨ip', f, heff, -, hwritten⟩
  · exact ⟨e, hsame, houtcome⟩
  · exact ⟨f e, hwritten, effect_keepsOutcome event hends n o hguard ip' f heff e houtcome⟩

/-- The entry that names a thread is the one the thread searches for. -/
theorem thread_slot {n : Node} (h : SearchInv n) (t : SearchThread) (ht : t ∈ n.threads)
    (i : Fin 256) (e : RoutingEntry) (he : n.routes.slots i = some e)
    (hnames : e.rreqMessageSender = t.id) : slotOf t.dest = i := by
  rcases h.threads t ht with ⟨hid, a, ha, hsender⟩
  exact h.distinct _ _ a e ha he (hsender ▸ hid) (hnames.trans hsender.symm)

/-- A thread that is cancelled had its search ended. -/
theorem over_of_cancelled {n : Node} (h : SearchInv n) (o : Op) (ip : U32)
    (f : RoutingEntry → RoutingEntry) (e : RoutingEntry) (he : n.getRoutingEntry ip = some e)
    (heff : o.effect n = .update ip f)
    (hf : (f e).rreqSearch = .searchFound ∨ (f e).rreqSearch = .searchFailed)
    (t : SearchThread) (ht : t ∈ n.threads) (hid : t.id = e.rreqMessageSender) :
    (o.apply n).SearchOver t.dest := by
  rw [Node.getRoutingEntry_eq] at he
  have hslot := thread_slot h t ht _ e he hid.symm
  refine ⟨f e, ?_, hf⟩
  rw [apply_slots, heff, hslot, he]
  simp only [Effect.slot, if_true, Option.map_some]

theorem apply_threads_stay (event : Event) (n : Node) (o : Op) (h : SearchInv n)
    (hguard : o.Guard event n) (t : SearchThread) (ht : t ∈ n.threads) :
    (∃ t' ∈ (o.apply n).threads, t'.id = t.id ∧ t'.dest = t.dest) ∨
      (event.endsSearch = true ∧ (o.apply n).SearchOver t.dest) := by
  rcases apply_threads_survive n o t ht with hcancels | hstays
  · cases o with
    | searchFound ip =>
        rcases hguard with ⟨s, m, hev, -, -⟩
        rcases hcancels with ⟨e, he, hid⟩
        exact Or.inr ⟨hev ▸ rfl,
          over_of_cancelled h (.searchFound ip) ip _ e he rfl (Or.inl rfl) t ht hid.symm⟩
    | searchFailed env id ip =>
        rcases hguard with ⟨hev, u, hu, rfl, rfl⟩
        rcases h.threads u hu with ⟨-, e, he, hsender⟩
        exact Or.inr ⟨hev ▸ rfl, over_of_cancelled h (.searchFailed env u.id u.dest) u.dest _ e he
          rfl (Or.inr rfl) t ht (hcancels.symm.trans hsender.symm)⟩
    | removeEntry ip =>
        -- A timer runs for the entry, so it names no thread.
        rcases hguard with ⟨-, a, ha, htimer, -⟩
        rcases hcancels with ⟨e, he, hid⟩
        rcases Option.some.inj (ha.symm.trans he) with rfl
        have hne : a.rreqMessageSender ≠ 0 := hid ▸ (h.threads t ht).1
        have hidle := h.notSearching ip a ha htimer a ha
        rw [Node.getRoutingEntry_eq] at ha
        exact absurd (h.sender _ a ha hne) hidle
    | _ => exact absurd hcancels id
  · exact Or.inl hstays

theorem apply_waiters_stay (event : Event) (hev : ∀ k, event ≠ .wait k) (n : Node) (o : Op)
    (hguard : o.Guard event n) (w : Waiter) (hw : w ∈ n.waiters) : w ∈ (o.apply n).waiters := by
  -- Of the operations on threads only `moveWaiter` takes a call out of its stage.
  by_cases hleaves : o.LeavesThreads
  · exact (apply_sameThreads n o hleaves).waiters ▸ hw
  cases o with
  | moveWaiter k stage => exact absurd hguard.1 (hev k)
  | beginWait ip => exact List.mem_append_left _ hw
  | searchFound ip =>
      simp only [Op.apply, Op.onEntry]
      cases n.getRoutingEntry ip with
      | none => exact hw
      | some e =>
          simp only []
          split <;> exact hw
  | removeEntry ip => exact (removeEntry_frame ip n).2.2 ▸ hw
  | startSearch | sendRreq | searchFailed => exact hw
  | create | previousHop | reverseRoute | hello | forwardRoute | activate | breakRoute | linkBreak
  | outgoingBreak | expireRoute | write | moveHello | incrementSequenceNum | writeSequenceNum
  | sendUnicast | sendBroadcast => exact absurd trivial hleaves

theorem apply_searchProgress (event : Event) (n : Node) (o : Op) (h : SearchInv n)
    (hguard : o.Guard event n) : SearchProgress event n (o.apply n) where
  entries := fun hev i e he => apply_entries_stay event hev n o hguard i e he
  threads := fun t ht => apply_threads_stay event n o h hguard t ht
  searchOver := fun hends ip hover => apply_over event hends n o hguard ip hover
  waiters := fun hev w hw => apply_waiters_stay event hev n o hguard w hw

/-- A step keeps the invariant and leaves the searches as `SearchProgress` says. -/
theorem step_searchProgress (n : Node) (input : Input) (h : SearchInv n)
    (hok : OpsMeet SearchOk n input) :
    SearchInv (step n input) ∧ SearchProgress input.event n (step n input) := by
  refine Prog.exec_relation Op.apply (fun o n => o.Guard input.event n ∧ SearchOk o n)
    (fun n n' => SearchInv n → SearchInv n' ∧ SearchProgress input.event n n')
    (fun n h => ⟨h, searchProgress_refl _ n⟩) (fun n₁ n₂ n₃ h₁ h₂ h => ?_)
    (fun o n hok h => ⟨apply_searchInv input.event o n h hok.1 hok.2,
      apply_searchProgress input.event n o h hok.1⟩)
    input.handler n (Prog.Meets.and input.handler n (handler_guard n input) hok) h
  rcases h₁ h with ⟨hinv, hprogress⟩
  rcases h₂ hinv with ⟨hinv', hprogress'⟩
  exact ⟨hinv', searchProgress_trans _ _ _ _ hprogress hprogress'⟩

/-- A timer that runs out leaves alone the entries it does not run for. -/
theorem expire_entries_stay (env : Env) (ip : U32) (n : Node) (i : Fin 256) (e : RoutingEntry)
    (he : n.routes.slots i = some e) (htimer : e.expirationThread = false) :
    (step n ⟨env, .expire ip⟩).routes.slots i = some e := by
  -- The timer that fires runs, so its entry is in another slot.
  have hother : ∀ a, n.getRoutingEntry ip = some a → a.expirationThread = true → i ≠ slotOf ip := by
    intro a ha hrunning hi
    rw [Node.getRoutingEntry_eq, ← hi, he, Option.some.injEq] at ha
    rw [ha, hrunning] at htimer
    cases htimer
  simp only [step, programStep, Input.handler, expirationFunc, Prog.exec]
  cases ha : n.getRoutingEntry ip with
  | none =>
      simp only [Option.any_none, Bool.false_eq_true, if_false, Prog.exec]
      exact he
  | some a =>
      simp only [Option.any_some]
      by_cases hrunning : a.expirationThread = true
      · have hi := hother a ha hrunning
        rw [if_pos hrunning]
        simp only [Prog.exec]
        cases n.isValid ip with
        | true =>
            simp only [if_true, Prog.exec]
            rw [apply_slots]
            simp only [Op.effect, Effect.slot, if_neg hi]
            exact he
        | false =>
            simp only [Bool.false_eq_true, if_false, Prog.exec]
            rw [apply_slots]
            simp only [Op.effect, Effect.slot, if_neg hi]
            exact he
      · rw [if_neg hrunning]
        exact he

/-! ### The searches are safe -/

/-- What a step leaves to the searches. -/
structure SearchSafe (n n' : Node) : Prop where
  /-- An entry searched for is not removed. -/
  kept : ∀ i e, n.routes.slots i = some e → e.rreqSearch = .searchSearching →
    ∃ e', n'.routes.slots i = some e'
  /-- The entry a call reads in its loop is there and stays there. -/
  read : ∀ w ∈ n.waiters, w.stage = .waiting →
    ∃ e e', n.routes.slots (slotOf w.dest) = some e ∧ n'.routes.slots (slotOf w.dest) = some e'
  /-- A search thread goes on, or its search has an outcome. -/
  cancelled : ∀ t ∈ n.threads,
    (∃ t' ∈ n'.threads, t'.id = t.id ∧ t'.dest = t.dest) ∨ n'.SearchOver t.dest

theorem boot_searchInv (ip bcast : U32) (hello : Nat → Byte) :
    SearchInv (Node.boot ip bcast hello) where
  timer := fun i e he => absurd he (Node.boot_slots_ne ip bcast hello i e)
  sender := fun i e he => absurd he (Node.boot_slots_ne ip bcast hello i e)
  pos := Nat.one_pos
  bound := fun i e he => absurd he (Node.boot_slots_ne ip bcast hello i e)
  distinct := fun i _ e _ he => absurd he (Node.boot_slots_ne ip bcast hello i e)
  threads := fun _ ht => absurd ht List.not_mem_nil
  waiting := fun _ hw => absurd hw List.not_mem_nil

/-- In a run from start-up in which no timer is started for an entry searched for, no
    search is overwritten, and the calls have looked before the timer of an entry whose
    search is over runs out, every step leaves the searches what they need. -/
theorem step_search_safe (ip bcast : U32) (hello : Nat → Byte) (inputs : List Input)
    (input : Input)
    (hok : AllSteps step (OpsMeet SearchOk) (Node.boot ip bcast hello) (inputs ++ [input])) :
    SearchSafe (run step (Node.boot ip bcast hello) inputs)
      (step (run step (Node.boot ip bcast hello) inputs) input) := by
  rw [allSteps_append] at hok
  rcases hok with ⟨hpast, hlast, -⟩
  have hinv := node_invariant_guarded SearchOk SearchInv apply_searchInv _ inputs
    (boot_searchInv ip bcast hello) hpast
  rcases step_searchProgress _ input hinv hlast with ⟨hinv', hprogress⟩
  generalize run step (Node.boot ip bcast hello) inputs = n at hinv hinv' hprogress
  have hkept : ∀ i e, n.routes.slots i = some e → e.rreqSearch = .searchSearching →
      ∃ e', (step n input).routes.slots i = some e' := by
    intro i e he hsearch
    by_cases hev : ∀ ip, input.event ≠ .expire ip
    · exact hprogress.entries hev i e he
    · rcases input with ⟨env, event⟩
      simp only [not_forall, not_not] at hev
      rcases hev with ⟨d, rfl⟩
      exact ⟨e, expire_entries_stay env d n i e he (hinv.timer i e he hsearch)⟩
  refine ⟨hkept, fun w hw hwait => ?_, fun t ht => ?_⟩
  · rcases hinv.waiting w hw hwait with ⟨e, he⟩
    -- Either no entry goes or no call leaves its loop.
    by_cases hev : ∀ ip, input.event ≠ .expire ip
    · rcases hprogress.entries hev _ e he with ⟨e', he'⟩
      exact ⟨e, e', he, he'⟩
    · simp only [not_forall, not_not] at hev
      rcases hev with ⟨d, hd⟩
      have hw' := hprogress.waiters (fun k hk => by rw [hd] at hk; cases hk) w hw
      rcases hinv'.waiting w hw' hwait with ⟨e', he'⟩
      exact ⟨e, e', he, he'⟩
  · rcases hprogress.threads t ht with hstays | ⟨-, hover⟩
    · exact Or.inl hstays
    · exact Or.inr hover

/-- A search, a hello of another neighbour, and the reply. -/
def replyToSearch : List Input :=
  [⟨.clear, .outgoing 0x03000000⟩, ⟨.clear, .search 1⟩,
    receive 0x02000000 (replyAfter 0 0x02000000 4 0),
    receive 0x02000000 (replyAfter 0 0x03000000 5 0x01000000)]

theorem step_search_safe_reply :
    SearchSafe (run step (Node.boot 0x01000000 0xFF000000 fun _ => 0) replyToSearch)
      (step (run step (Node.boot 0x01000000 0xFF000000 fun _ => 0) replyToSearch)
        ⟨.clear, .wait 0⟩) :=
  step_search_safe 0x01000000 0xFF000000 (fun _ => 0) replyToSearch ⟨.clear, .wait 0⟩ (by decide)

/-- The node searches for what turns out to be a neighbour, and its hello comes
    before the reply. -/
def helloWhileSearching : List Input :=
  [⟨.clear, .outgoing 0x03000000⟩, ⟨.clear, .search 1⟩,
    receive 0x03000000 (replyAfter 0 0x03000000 4 0)]

/-- The hello starts a timer. It runs out and takes the entry, and with it the
    search thread, while the caller is in its loop. -/
theorem not_search_safe_hello :
    ¬ ∀ (ip bcast : U32) (hello : Nat → Byte) (inputs : List Input) (input : Input),
      SearchSafe (run step (Node.boot ip bcast hello) inputs)
        (step (run step (Node.boot ip bcast hello) inputs) input) := by
  intro hall
  have hsafe := hall 0x01000000 0xFF000000 (fun _ => 0) helloWhileSearching
    ⟨.clear, .expire 0x03000000⟩
  have hsearching : ((run step (Node.boot 0x01000000 0xFF000000 fun _ => 0)
      helloWhileSearching).routes.slots 3).map (·.rreqSearch) = some .searchSearching := by decide
  have hgone : (step (run step (Node.boot 0x01000000 0xFF000000 fun _ => 0) helloWhileSearching)
      ⟨.clear, .expire 0x03000000⟩).routes.slots 3 = none := by decide
  rcases Option.map_eq_some_iff.mp hsearching with ⟨e, he, hsearch⟩
  rcases hsafe.kept 3 e he hsearch with ⟨e', he'⟩
  exact absurd (hgone.symm.trans he') nofun

end OpenManet
