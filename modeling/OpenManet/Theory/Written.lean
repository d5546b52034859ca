import OpenManet.Theory.Effect
import OpenManet.Library.Projection

/-!
# What Has Been Written

A node's state holds two pieces of memory nobody has written: the `rreq_id` of an
entry on which no request has been recorded, and the block the hello thread
builds its RREP in, one field of which is never assigned. `Node.written` blanks
them out, and `Env.blank` blanks the memory a handler's allocations find.

Every operation does to the written part of a node what it does to the node
(`apply_written`), so what a handler leaves behind in the table never depends on
fresh memory as long as its decisions do not. The handlers that decide on nothing
but written fields, and send nothing but written bytes, project at every node.
The other three are the subject of `Theory.Disclosure`.

## Main definitions

* `RoutingEntry.written`, `Node.written`, `Env.blank`: What is not fresh memory.
* `Op.blank`: An operation in blank memory.
* `Blind`: A handler that projects.

## Theorems

* `apply_written`: Every operation projects.
* `blind_recvRrep`, `blind_recvRerr`, `blind_sendRreq`, `blind_waiterStep`,
  `blind_searchThreadStep`, `blind_expirationFunc`: Handlers that project.
-/

namespace OpenManet

/-- An entry as far as it has been written. -/
def RoutingEntry.written (e : RoutingEntry) : RoutingEntry :=
  { e with rreqId := if e.rreqIdSet then e.rreqId else 0 }

def RoutingTable.written (table : RoutingTable) : RoutingTable where
  slots := fun i => (table.slots i).map RoutingEntry.written
  keyed := by
    intro i e h
    rcases Option.map_eq_some_iff.mp h with ⟨e₀, he₀, rfl⟩
    exact table.keyed i e₀ he₀

/-- A node as far as it has been written. -/
def Node.written (n : Node) : Node :=
  { n with routes := n.routes.written, helloBlock := fun _ => 0 }

/-- The surroundings with clear memory. -/
def Env.blank (env : Env) : Env := { env with memory := fun _ _ => 0 }

def Write.blank : Write → Write
  | timer env ms => .timer env.blank ms
  | w => w

/-- An operation in clear memory. -/
def Op.blank : Op → Op
  | create env destIp destSeq validSeq nextHop hopCount timeOut =>
    .create env.blank destIp destSeq validSeq nextHop hopCount timeOut
  | previousHop env senderIp listed new => .previousHop env.blank senderIp listed new
  | reverseRoute env senderIp m new => .reverseRoute env.blank senderIp m new
  | hello env m new => .hello env.blank m new
  | forwardRoute env senderIp m new => .forwardRoute env.blank senderIp m new
  | breakRoute env ip destSeq => .breakRoute env.blank ip destSeq
  | linkBreak env ip => .linkBreak env.blank ip
  | outgoingBreak env ip => .outgoingBreak env.blank ip
  | expireRoute env ip => .expireRoute env.blank ip
  | write ip w => .write ip w.blank
  | searchFailed env id destAddr => .searchFailed env.blank id destAddr
  | o => o

section Reads

variable (n : Node) (ip : U32)

@[simp] theorem written_getRoutingEntry :
    n.written.getRoutingEntry ip = (n.getRoutingEntry ip).map RoutingEntry.written := rfl

@[simp] theorem written_isNew : n.written.isNew ip = n.isNew ip := by
  unfold Node.isNew
  rw [written_getRoutingEntry, Option.isNone_map]

@[simp] theorem written_isValid : n.written.isValid ip = n.isValid ip := by
  unfold Node.isValid
  rw [written_getRoutingEntry, Option.any_map]
  rfl

@[simp] theorem written_nextHopOf : n.written.nextHopOf ip = n.nextHopOf ip := by
  unfold Node.nextHopOf
  rw [written_getRoutingEntry]
  cases n.getRoutingEntry ip <;> rfl

@[simp] theorem written_destIpOf : n.written.destIpOf ip = n.destIpOf ip := by
  unfold Node.destIpOf
  rw [written_getRoutingEntry]
  cases n.getRoutingEntry ip <;> rfl

end Reads

/-! ### The writes -/

section Writes

variable (env : Env) (senderIp : U32) (new : Bool) (e : RoutingEntry)

theorem previousHop_written (listed : U32) :
    (e.previousHop env listed new).written = e.written.previousHop env listed new := by
  cases new <;> rfl

theorem reverseRoute_written (m : RreqHeader) :
    (e.reverseRoute env senderIp m new).written = e.written.reverseRoute env senderIp m new := by
  unfold RoutingEntry.reverseRoute
  have htest :
      fresherReverse m { e.written with rreqId := m.rreqId, rreqIdSet := true }.startRreqTimer =
      fresherReverse m { e with rreqId := m.rreqId, rreqIdSet := true }.startRreqTimer := rfl
  simp only [htest]
  split <;> rfl

theorem hello_written (m : RrepHeader) :
    (e.hello env m new).written = e.written.hello env m new := by
  unfold RoutingEntry.hello
  split <;> rename_i h
  · exact (if_pos h).symm
  · exact (if_neg h).symm

theorem forwardRoute_written (m : RrepHeader) :
    (e.forwardRoute env senderIp m new).written = e.written.forwardRoute env senderIp m new := by
  unfold RoutingEntry.forwardRoute
  have htest : fresherForward m e.written = fresherForward m e := rfl
  simp only [htest]
  split <;> rfl

theorem activate_written : e.activate.written = e.written.activate := by
  rw [activate_eq, activate_eq]
  rfl

theorem write_written (w : Write) : (w.apply e).written = w.apply e.written := by
  cases w <;> rfl

theorem blank_apply (w : Write) : w.blank.apply = w.apply := by
  cases w <;> rfl

end Writes

/-! ### The operations -/

theorem updateEntry_written (ip : U32) (f : RoutingEntry → RoutingEntry)
    (hf : ∀ e, (f e).written = f e.written) (n : Node) :
    (n.updateEntry ip f).written = n.written.updateEntry ip f := by
  have hroutes : (n.updateEntry ip f).routes.written = (n.written.updateEntry ip f).routes := by
    ext1 i
    simp only [RoutingTable.written, Node.updateEntry, Node.written, RoutingTable.modify_slots]
    by_cases hi : i = slotOf ip
    · rw [if_pos hi, if_pos hi, Option.map_map, Option.map_map]
      refine Option.map_congr (fun e _ => ?_)
      simp only [Function.comp_apply, ← hf e]
      rfl
    · rw [if_neg hi, if_neg hi]
  unfold Node.written
  rw [hroutes]
  rfl

theorem onEntry_written (ip : U32) (f : RoutingEntry → RoutingEntry)
    (rest : RoutingEntry → Node → Node) (hf : ∀ e, (f e).written = f e.written)
    (hrest : ∀ e n, (rest e n).written = rest e.written n.written) (n : Node) :
    (Op.onEntry ip f rest n).written = Op.onEntry ip f rest n.written := by
  unfold Op.onEntry
  rw [written_getRoutingEntry]
  cases n.getRoutingEntry ip with
  | none => rfl
  | some e => rw [hrest, updateEntry_written ip f hf, Option.map_some]

theorem releaseRoute_written (a : U32) (n : Node) :
    (n.releaseRoute a).written = n.written.releaseRoute a := by
  unfold Node.releaseRoute
  by_cases h : n.activeRoutes > 0
  · rw [if_pos h]
    exact (if_pos h).symm
  · rw [if_neg h]
    exact (if_neg h).symm

theorem freshEntry_written (env : Env) (ip s : U32) (v : SeqValid) (h c t : U32) :
    (freshEntry env ip s v h c t).written = freshEntry env.blank ip s v h c t := by
  have hword : wordAt (fun _ => 0) rreqIdWord = 0 := by decide
  simp only [RoutingEntry.written, freshEntry, Env.blank, hword]
  rfl

theorem createOrGet_written (env : Env) (ip s : U32) (v : SeqValid) (h c t : U32) (n : Node) :
    (n.createOrGetRoutingEntry env ip s v h c t).written =
      n.written.createOrGetRoutingEntry env.blank ip s v h c t := by
  unfold Node.createOrGetRoutingEntry
  rw [written_getRoutingEntry]
  cases n.getRoutingEntry ip with
  | some e => rfl
  | none =>
      have hroutes : (n.routes.addRoutingEntry (freshEntry env ip s v h c t)).written =
          n.written.routes.addRoutingEntry (freshEntry env.blank ip s v h c t) := by
        ext1 i
        simp only [RoutingTable.written, RoutingTable.addRoutingEntry_slots, Node.written]
        show Option.map _ (if i = slotOf ip then _ else _) = if i = slotOf ip then _ else _
        by_cases hi : i = slotOf ip
        · rw [if_pos hi, if_pos hi, Option.map_some, freshEntry_written]
        · rw [if_neg hi, if_neg hi]
      simp only [Option.map_none, Node.written, hroutes]

/-- An operation does to the written part of a node what it does to the node. -/
theorem apply_written (o : Op) (n : Node) : (o.apply n).written = o.blank.apply n.written := by
  cases o with
  | create env ip s v h c t => exact createOrGet_written env ip s v h c t n
  | previousHop env s l new =>
      exact onEntry_written s _ (fun _ n => n.call (.addUnicastRoutingEntry s s))
        (fun e => previousHop_written env new e l) (fun _ _ => rfl) n
  | reverseRoute env s m new =>
      exact onEntry_written m.srcIp _ (fun e n => n.call (.addUnicastRoutingEntry e.destIp s))
        (fun e => reverseRoute_written env s new e m) (fun _ _ => rfl) n
  | hello env m new => exact updateEntry_written _ _ (fun e => hello_written env new e m) n
  | forwardRoute env s m new =>
      refine onEntry_written _ _ _ (fun e => forwardRoute_written env s new e m) (fun e n => ?_) n
      -- Whether the reply is fresher is read off fields that were written.
      have htest : fresherForward m e.written = fresherForward m e := rfl
      rw [htest]
      cases new || fresherForward m e <;> rfl
  | searchFound ip =>
      simp only [Op.apply, Op.blank]
      refine onEntry_written _ RoutingEntry.searchFound _ (fun _ => rfl) (fun e n => ?_) n
      show (ite _ _ _ : Node).written = ite (e.rreqMessageSender ≠ 0) _ _
      split <;> rfl
  | activate ip =>
      simp only [Op.apply, Op.blank]
      refine onEntry_written _ _ _ activate_written (fun e n => ?_) n
      show (ite _ _ _ : Node).written = ite (e.activeRoute = 0) _ _
      split <;> rfl
  | breakRoute env ip s =>
      exact onEntry_written ip (RoutingEntry.breakRoute env s)
        (fun e n => (n.call (.deleteEntry e.destIp e.nextHop)).releaseRoute e.activeRoute)
        (fun _ => rfl) (fun e n => releaseRoute_written _ _) n
  | linkBreak env ip =>
      refine onEntry_written _ (RoutingEntry.linkBreak env) _ (fun _ => rfl) (fun e n => ?_) n
      -- The precursors were written, so both take the same branch.
      have hlist : e.written.precursorList = e.precursorList := rfl
      simp only [hlist]
      split
      · exact congrArg (Node.call _) (releaseRoute_written _ _)
      · rfl
  | outgoingBreak env ip =>
      refine onEntry_written _ (RoutingEntry.outgoingBreak env) _ (fun _ => rfl) (fun e n => ?_) n
      show (ite _ _ _ : Node).written = ite (e.seqValid = .seqValid) _ _
      split
      · exact releaseRoute_written _ _
      · rfl
  | expireRoute env ip =>
      refine onEntry_written _ (RoutingEntry.expireRoute env) _ (fun _ => rfl) (fun e n => ?_) n
      show (ite _ _ _ : Node).written = ite (e.seqValid = .seqValid) _ _
      split
      · exact releaseRoute_written _ _
      · rfl
  | removeEntry ip =>
      simp only [Op.apply, Op.blank]
      rw [written_getRoutingEntry]
      cases n.getRoutingEntry ip with
      | none => rfl
      | some e =>
          -- The slot is cleared in both tables.
          have hroutes : (n.routes.removeRoutingEntry e.destIp).written =
              n.routes.written.removeRoutingEntry e.destIp := by
            ext1 i
            simp only [RoutingTable.written, RoutingTable.removeRoutingEntry_slots]
            by_cases hi : i = slotOf e.destIp
            · rw [if_pos hi, if_pos hi]
              rfl
            · rw [if_neg hi, if_neg hi]
          show (ite _ _ _ : Node).written = ite (e.rreqMessageSender ≠ 0) _ _
          split <;> simp only [Node.written, Node.pthreadCancel, hroutes] <;> rfl
  | write ip w =>
      simp only [Op.apply, Op.blank, blank_apply]
      exact updateEntry_written _ _ (fun e => write_written e w) n
  | startSearch ip =>
      have hupdate := updateEntry_written ip (RoutingEntry.startSearch n.nextThread)
        (fun _ => rfl) n
      let create (n' : Node) : Node :=
        { n' with
          threads := n'.threads ++ [{ id := n.nextThread, dest := ip, stage := .starting }]
          nextThread := n.nextThread + 1 }
      exact congrArg create hupdate
  | searchFailed env id ip =>
      have hupdate := updateEntry_written ip (RoutingEntry.searchFailed env) (fun _ => rfl) n
      exact congrArg (Node.pthreadCancel id) hupdate
  | beginWait | moveWaiter | moveHello | incrementSequenceNum | writeSequenceNum | sendRreq
  | sendUnicast | sendBroadcast => rfl

/-! ### Handlers that project -/

/-- The first handler leaves of the written part of the node what the second
    makes of that part. -/
abbrev Blind (p q : Handler) (n : Node) : Prop := Prog.Projects Op.apply Node.written p q n

theorem blind_ret (r : Outcome) (n : Node) : Blind (.ret r) (.ret r) n := Prog.projects_ret _ _ n

theorem blind_op (o : Op) (next next' : Node → Node → Handler) (n : Node)
    (h : Blind (next n (o.apply n)) (next' n.written (o.apply n).written) (o.apply n)) :
    Blind (.op o next) (.op o.blank next') n :=
  Prog.projects_op o o.blank next next' n (apply_written o n) h

theorem blind_locked (ip : U32) (o : Op) (next next' : Handler) (n : Node)
    (h : Blind next next' (o.apply n)) : Blind (locked ip o next) (locked ip o.blank next') n :=
  Prog.projects_lock _ _ _ _ n (blind_op o _ _ n (Prog.projects_unlock _ _ _ _ _ h))

section Handlers

variable (env : Env) (n : Node)

theorem blind_previousHopSection (s listed : U32) (next next' : Handler)
    (h : Blind next next' (afterPreviousHop env s listed n)) :
    Blind (previousHopSection env s listed next)
      (previousHopSection env.blank s listed next') n := by
  refine blind_op (.create env s 0 .seqInvalid s 0 (toU32 activeRouteTimeout)) _ _ n ?_
  rw [written_isNew]
  exact blind_locked s (.previousHop env s listed (n.isNew s)) _ _ _ h

/-! #### Route replies -/

theorem blind_recvHello (s : U32) (m : RrepHeader) :
    Blind (recvHello env s m) (recvHello env.blank s m) n := by
  refine blind_op (.create env m.destIp m.destSeq .seqValid s (m.hopCount.setWidth 32) m.lifetime)
    _ _ n ?_
  rw [written_isNew]
  exact blind_locked m.destIp (.hello env m _) _ _ _ (blind_ret _ _)

theorem blind_forwardRrep (m : RrepHeader) (next next' : Handler)
    (h : ∀ n, Blind next next' n) : Blind (forwardRrep m next) (forwardRrep m next') n := by
  refine Prog.projects_read _ _ n ?_
  rw [written_getRoutingEntry, Option.isSome_map]
  refine Prog.projects_ite _ _ _ _ _ _ n Iff.rfl (fun _ => ?_) (fun _ => h n)
  refine Prog.projects_lock _ _ _ _ n (blind_op (.activate m.srcIp) _ _ n ?_)
  rw [written_nextHopOf, written_nextHopOf]
  refine blind_op (.write m.srcIp (.precursor _)) _ _ _ ?_
  refine blind_op (.write m.destIp (.precursor _)) _ _ _ ?_
  exact blind_op (.sendUnicast _ _) _ _ _ (Prog.projects_unlock _ _ _ _ _ (h _))

theorem blind_installForwardRoute (s : U32) (m : RrepHeader) :
    Blind (installForwardRoute env s m) (installForwardRoute env.blank s m) n := by
  refine blind_op (.create env m.destIp m.destSeq .seqValid s (m.hopCount.setWidth 32) m.lifetime)
    _ _ n ?_
  rw [written_isNew]
  refine Prog.projects_lock _ _ _ _ _ (blind_op (.forwardRoute env s m _) _ _ _ ?_)
  refine blind_op (.activate m.destIp) _ _ _ ?_
  refine Prog.projects_ite _ _ _ _ _ _ _ Iff.rfl (fun _ => ?_) (fun _ => ?_)
  · exact blind_forwardRrep _ m _ _ (fun n => Prog.projects_unlock _ _ _ _ n (blind_ret _ n))
  · exact Prog.projects_unlock _ _ _ _ _ (blind_ret _ _)

theorem blind_publishFound (m : RrepHeader) (next next' : Handler)
    (h : ∀ n, Blind next next' n) : Blind (publishFound m next) (publishFound m next') n := by
  refine Prog.projects_read _ _ n ?_
  rw [written_getRoutingEntry, Option.isSome_map]
  refine Prog.projects_ite _ _ _ _ _ _ n Iff.rfl (fun _ => ?_) (fun _ => h n)
  exact blind_locked m.destIp (.searchFound m.destIp) _ _ n (h _)

theorem blind_recvRrep (s : U32) (m : RrepHeader) :
    Blind (recvRrep env s m) (recvRrep env.blank s m) n := by
  refine blind_publishFound n m _ _ (fun n => ?_)
  refine Prog.projects_ite _ _ _ _ _ _ n Iff.rfl (fun _ => ?_) (fun _ => ?_)
  · exact blind_recvHello env n s _
  · exact blind_previousHopSection env n s _ _ _ (blind_installForwardRoute env _ s _)

/-! #### Route errors -/

/-- The locals agree on what has been collected. -/
structure SameCollected (l l' : RerrLocals) : Prop where
  target : l.target = l'.target
  numDests : l.numDests = l'.numDests
  pairs : ∀ i, i < l.numDests.toNat → l.pairs i = l'.pairs i

theorem SameCollected.packet_eq {l l' : RerrLocals} (h : SameCollected l l') :
    l.packet = l'.packet := by
  have hwords : ((List.range (2 * (l.numDests / 2).toNat)).map l.pairs) =
      (List.range (2 * (l.numDests / 2).toNat)).map l'.pairs := by
    refine List.map_congr_left (fun i hi => h.pairs i ?_)
    have hlt := List.mem_range.mp hi
    rw [BitVec.toNat_udiv] at hlt
    exact Nat.lt_of_lt_of_le hlt (Nat.mul_div_le _ 2)
  unfold RerrLocals.packet generateRerrMessageBuff
  rw [hwords, h.numDests]

theorem SameCollected.collect {l l' : RerrLocals} (h : SameCollected l l') (e : RoutingEntry)
    (destSeq : U32) : SameCollected (l.collect e destSeq) (l'.collect e.written destSeq) := by
  unfold RerrLocals.collect
  by_cases hlist : e.precursorList ≠ []
  · rw [if_pos hlist, if_pos (show e.written.precursorList ≠ [] from hlist)]
    refine ⟨?_, ?_, fun i hi => ?_⟩
    · show l.target.add _ = l'.target.add _
      rw [h.target]
      rfl
    · show l.numDests + 2 = l'.numDests + 2
      rw [h.numDests]
    · show writePair _ _ _ _ i = writePair _ _ _ _ i
      unfold writePair
      rw [h.numDests]
      by_cases h0 : i = l'.numDests.toNat
      · rw [if_pos h0, if_pos h0]
        rfl
      · by_cases h1 : i = l'.numDests.toNat + 1
        · rw [if_neg h0, if_neg h0, if_pos h1, if_pos h1]
        · rw [if_neg h0, if_neg h0, if_neg h1, if_neg h1]
          refine h.pairs i ?_
          -- The count may wrap, which only makes it smaller.
          have hsum : (l.numDests + 2).toNat ≤ l.numDests.toNat + 2 := by
            rw [BitVec.toNat_add]
            exact Nat.mod_le _ _
          have hi' : i < (l.numDests + 2).toNat := hi
          rw [← h.numDests] at h0 h1
          omega
  · rw [if_neg hlist, if_neg (show ¬ e.written.precursorList ≠ [] from hlist)]
    exact h

theorem blind_send (target : RerrTarget) (packet : Packet) (next next' : Handler)
    (h : Blind next next' ((target.send packet).apply n)) :
    Blind (.op (target.send packet) fun _ _ => next)
      (.op (target.send packet) fun _ _ => next') n := by
  have hblank : (target.send packet).blank = target.send packet := by
    unfold RerrTarget.send
    split <;> rfl
  have hsend := blind_op (target.send packet) (fun _ _ => next) (fun _ _ => next') n h
  rw [hblank] at hsend
  exact hsend

theorem blind_rerrLoop (s : U32) (pairs : List (U32 × U32)) (l l' : RerrLocals)
    (h : SameCollected l l') :
    Blind (rerrLoop env s pairs l) (rerrLoop env.blank s pairs l') n := by
  -- What is collected agrees as far as the message reaches, pair after pair.
  induction pairs generalizing n l l' with
  | nil =>
      unfold rerrLoop
      rw [h.packet_eq, h.target, h.numDests]
      refine Prog.projects_ite _ _ _ _ _ _ n Iff.rfl (fun _ => blind_ret _ n) (fun _ => ?_)
      exact blind_send n _ _ _ _ (blind_ret _ _)
  | cons pair rest ih =>
      refine Prog.projects_read _ _ n ?_
      rw [written_getRoutingEntry]
      cases hpair : n.getRoutingEntry pair.1 with
      | none => exact ih n l l' h
      | some e =>
          refine Prog.projects_ite _ _ _ _ _ _ n Iff.rfl (fun _ => ?_) (fun _ => ih n l l' h)
          refine Prog.projects_lock _ _ _ _ n (Prog.projects_read _ _ n ?_)
          rw [written_getRoutingEntry, hpair]
          refine blind_op (.breakRoute env pair.1 pair.2) _ _ n ?_
          exact Prog.projects_unlock _ _ _ _ _ (ih _ _ _ (h.collect e pair.2))

/-- Of the words behind a RERR, those of its pairs count. -/
theorem blind_recvRerr (s : U32) (header : RerrHeader) (destPairs destPairs' : Nat → U32)
    (h : rerrPairs header.destCount destPairs = rerrPairs header.destCount destPairs') :
    Blind (recvRerr env s header destPairs) (recvRerr env.blank s header destPairs') n := by
  unfold recvRerr
  rw [h]
  exact blind_rerrLoop env n s _ _ _ ⟨rfl, rfl, fun i hi => absurd hi (Nat.not_lt_zero i)⟩

/-! #### Packets and searches -/

theorem blind_incomingDataMessage (src dest : U32) :
    Blind (incomingDataMessage env src dest) (incomingDataMessage env.blank src dest) n := by
  refine Prog.projects_read _ _ n ?_
  rw [written_getRoutingEntry, Option.isSome_map]
  refine Prog.projects_ite _ _ _ _ _ _ n Iff.rfl (fun _ => ?_) (fun _ => blind_ret _ n)
  exact blind_locked src (.write src (.timer env _)) _ _ n (blind_ret _ _)

theorem blind_startOrJoin (destAddr : U32) (new : Bool) :
    Blind (startOrJoin destAddr new n) (startOrJoin destAddr new n.written) n := by
  unfold startOrJoin
  rw [written_getRoutingEntry]
  cases n.getRoutingEntry destAddr with
  | none => exact blind_ret _ n
  | some e =>
      have hwait : ∀ n, Blind (.op (.beginWait destAddr) fun _ _ => .ret .waits)
          (.op (.beginWait destAddr) fun _ _ => .ret .waits) n :=
        fun n => blind_op (.beginWait destAddr) _ _ n (blind_ret _ _)
      refine Prog.projects_ite _ _ _ _ _ _ n Iff.rfl (fun _ => blind_ret _ n) (fun _ => ?_)
      refine Prog.projects_ite _ _ _ _ _ _ n Iff.rfl (fun _ => hwait n) (fun _ => ?_)
      refine Prog.projects_ite _ _ _ _ _ _ n Iff.rfl (fun _ => ?_) (fun _ => ?_)
      · exact blind_locked destAddr (.startSearch destAddr) _ _ n (hwait _)
      · refine blind_op (.write destAddr .stopTimer) _ _ n ?_
        exact blind_locked destAddr (.startSearch destAddr) _ _ _ (hwait _)

theorem blind_sendRreq (destAddr : U32) :
    Blind (sendRreq env destAddr) (sendRreq env.blank destAddr) n := by
  refine blind_op (.create env destAddr 0 .seqInvalid 0 0 (toU32 myRouteTimeout)) _ _ n ?_
  rw [written_isNew]
  exact blind_startOrJoin _ destAddr _

theorem blind_outgoingMessage (dest : U32) :
    Blind (outgoingMessage env dest) (outgoingMessage env.blank dest) n := by
  refine Prog.projects_read _ _ n ?_
  refine Prog.projects_ite _ _ _ _ _ _ n Iff.rfl (fun _ => blind_ret _ n) (fun _ => ?_)
  rw [written_getRoutingEntry]
  cases n.getRoutingEntry dest with
  | none => exact blind_sendRreq env n dest
  | some e =>
      simp only [Option.map_some, written_isValid]
      refine Prog.projects_ite _ _ _ _ _ _ n Iff.rfl (fun _ => ?_) (fun _ => ?_)
      · exact blind_locked dest (.write dest (.timer env _)) _ _ n (blind_ret _ _)
      refine Prog.projects_ite _ _ _ _ _ _ n Iff.rfl (fun _ => blind_ret _ n) (fun _ => ?_)
      refine Prog.projects_ite _ _ _ _ _ _ n Iff.rfl (fun _ => ?_) (fun _ => ?_)
      · exact blind_locked dest (.outgoingBreak env dest) _ _ n (blind_sendRreq env _ dest)
      · exact blind_sendRreq env n dest

theorem blind_retryStep (t : SearchThread) (rreq : RreqHeader) (i : Nat) :
    Blind (retryStep env t rreq i) (retryStep env.blank t rreq i) n := by
  refine Prog.projects_ite _ _ _ _ _ _ n Iff.rfl (fun _ => ?_) (fun _ => ?_)
  · exact blind_op (.sendRreq t.id rreq _ _) _ _ n (blind_ret _ _)
  · exact blind_locked t.dest (.searchFailed env t.id t.dest) _ _ n (blind_ret _ _)

theorem blind_ringStep (t : SearchThread) (rreq : RreqHeader) (ttl : U32) :
    Blind (ringStep env t rreq ttl) (ringStep env.blank t rreq ttl) n := by
  refine Prog.projects_ite _ _ _ _ _ _ n Iff.rfl (fun _ => ?_) (fun _ => ?_)
  · exact blind_op (.sendRreq t.id rreq _ _) _ _ n (blind_ret _ _)
  · exact blind_retryStep env n t rreq 0

theorem blind_searchThreadStep (id : Nat) :
    Blind (searchThreadStep env id) (searchThreadStep env.blank id) n := by
  refine Prog.projects_read _ _ n ?_
  -- Threads are not part of the table, so both find the same one.
  have hthreads : n.written.threads = n.threads := rfl
  rw [hthreads]
  cases n.threads.find? (fun t => t.id = id) with
  | none => exact blind_ret _ n
  | some t =>
      cases hstage : t.stage with
      | starting =>
          simp only [hstage]
          refine blind_op .incrementSequenceNum _ _ n ?_
          refine Prog.projects_lock _ _ _ _ _ (Prog.projects_read _ _ _ ?_)
          refine Prog.projects_unlock _ _ _ _ _ ?_
          rw [written_getRoutingEntry]
          cases (Op.incrementSequenceNum.apply n).getRoutingEntry t.dest with
          | none => exact blind_ret _ _
          | some e => exact blind_ringStep env _ t _ _
      | ring rreq ttl =>
          simp only [hstage]
          exact blind_ringStep env n t rreq ttl
      | retry rreq i =>
          simp only [hstage]
          exact blind_retryStep env n t rreq i

theorem blind_waiterStep (k : Nat) : Blind (waiterStep env k) (waiterStep env.blank k) n := by
  refine Prog.projects_read _ _ n ?_
  have hwaiters : n.written.waiters = n.waiters := rfl
  rw [hwaiters]
  cases n.waiters[k]? with
  | none => exact blind_ret _ n
  | some w =>
      simp only [written_getRoutingEntry]
      cases n.getRoutingEntry w.dest with
      | none => exact blind_ret _ n
      | some e =>
          cases w.stage with
          | waiting =>
              refine Prog.projects_ite _ _ _ _ _ _ n Iff.rfl (fun _ => blind_ret _ n) (fun _ => ?_)
              exact blind_op (.moveWaiter k .left) _ _ n (blind_ret _ _)
          | left =>
              refine Prog.projects_lock _ _ _ _ n
                (blind_op (.moveWaiter k (.decided e.rreqSearch)) _ _ n ?_)
              refine Prog.projects_unlock _ _ _ _ _ ?_
              exact blind_op (.sendUnicast _ .timing) _ _ _ (blind_ret _ _)
          | decided outcome =>
              refine Prog.projects_ite _ _ _ _ _ _ n Iff.rfl (fun _ => ?_) (fun _ => ?_)
              · refine blind_locked w.dest (.write w.dest (.timer env 500)) _ _ n ?_
                exact blind_op (.moveWaiter k (.returned .packetDrop)) _ _ _ (blind_ret _ _)
              · refine blind_op (.write w.dest .searchNone) _ _ n ?_
                exact blind_op (.moveWaiter k (.returned .packetAccept)) _ _ _ (blind_ret _ _)
          | returned verdict => exact blind_ret _ n

/-! #### Timers -/

theorem blind_expirationFunc (ip : U32) :
    Blind (expirationFunc env ip) (expirationFunc env.blank ip) n := by
  refine Prog.projects_read _ _ n ?_
  rw [written_getRoutingEntry, Option.any_map]
  refine Prog.projects_ite _ _ _ _ _ _ n Iff.rfl (fun _ => ?_) (fun _ => blind_ret _ n)
  refine Prog.projects_lock _ _ _ _ n (Prog.projects_read _ _ n ?_)
  rw [written_isValid]
  refine Prog.projects_ite _ _ _ _ _ _ n Iff.rfl (fun _ => ?_) (fun _ => ?_)
  · exact blind_op (.expireRoute env ip) _ _ n (Prog.projects_unlock _ _ _ _ _ (blind_ret _ _))
  · exact Prog.projects_unlock _ _ _ _ n (blind_op (.removeEntry ip) _ _ n (blind_ret _ _))

theorem blind_rreqIdFunc (ip : U32) : Blind (rreqIdFunc ip) (rreqIdFunc ip) n := by
  refine Prog.projects_read _ _ n ?_
  rw [written_getRoutingEntry, Option.any_map]
  refine Prog.projects_ite _ _ _ _ _ _ n Iff.rfl (fun _ => ?_) (fun _ => blind_ret _ n)
  exact blind_locked ip (.write ip .forgetRreqId) _ _ n (blind_ret _ _)

end Handlers

end OpenManet
