import OpenManet.Library.Once
import OpenManet.Library.Tickets
import OpenManet.Theory.SeqNumbers

/-!
# The Own Sequence Number

A search begins by counting the node's own number up in one step, and its request
carries the result. The destination of a request reads its number, chooses the next
one and writes it back, in two steps with anything in between. A search or a second
answer in between is lost: the number goes back, and is sent once more.

Here the beginnings of searches and the answers run side by side, each access to the
number a step of its own. Each execution draws a number and sends it later, so the
executions are the parties of a ledger, with the distance from the number at the
start as the rank. When each answer writes what it would choose from the number
it finds then, the counter only ever moves on, and all numbers sent are distinct.

## Main definitions

* `NumberCall`: The executions that take an own number.
* `numbersSent`: The own numbers sent.
* `AsksNear`: The number in a request is near the node's own.
* `NotOvertaken`: An answer writes what it would choose now.
* `NoRollover`: The number is not taken once round.
* `NumberCall.Stage`: How far an execution is.

## Theorems

* `searchThreadStep_begins`: A search thread begins as here.
* `nextOwnSeq_newer`: The number an answer chooses is newer.
* `stage_move`: What a step of an execution does to the number.
* `own_numbers_distinct`: Executions that are not overtaken send distinct numbers.
* `not_own_numbers_distinct_race`: An answer and a search send the same one.
-/

namespace OpenManet

/-! ### The executions -/

/-- `send_rreq_thread` up to its first sleep. -/
def beginSearch (env : Env) (t : SearchThread) : Handler :=
  .op .incrementSequenceNum fun _ n =>
  .lock (slotOf t.dest) <|
  .read fun n' =>
  .unlock (slotOf t.dest) <|
  match n'.getRoutingEntry t.dest with
  | none => .ret .waits
  | some destEntry =>
    ringStep env t (searchRequest n.ipAddress n.sequenceNum destEntry) (startTtl destEntry)

/-- A search thread that has just been created goes on as `beginSearch`. -/
theorem searchThreadStep_begins (env : Env) (id : Nat) :
    ∃ next, searchThreadStep env id = .read next ∧ ∀ n t,
      n.threads.find? (fun t => t.id = id) = some t → t.stage = .starting →
      next n = beginSearch env t := by
  refine ⟨_, rfl, fun n t hfind hstage => ?_⟩
  simp only [hfind, hstage]
  rfl

/-- An execution that takes an own number. -/
inductive NumberCall where
  | search (env : Env) (t : SearchThread)
  | reply (env : Env) (m : RreqHeader) (senderIp : U32)

def NumberCall.program : NumberCall → Handler
  | search env t => beginSearch env t
  | reply env m senderIp => sendRrepDestination env m senderIp acceptPacket

/-- An answer from the write of its number on. -/
def answerWith (env : Env) (m : RreqHeader) (senderIp seq : U32) : Handler :=
  .op (.writeSequenceNum seq) fun _ n =>
  .op (.sendUnicast senderIp (.rrep (generateRrepMessage (env.memory .rrep) 0 n.ipAddress seq
    m.srcIp (toU32 myRouteTimeout)) [])) fun _ _ => acceptPacket

theorem sendRrepDestination_eq (env : Env) (m : RreqHeader) (senderIp : U32) :
    sendRrepDestination env m senderIp acceptPacket =
      .read fun n => answerWith env m senderIp (nextOwnSeq m n.sequenceNum) := rfl

/-- The number a call tells about the node with the address: that of its own
    request, or of a reply about itself. -/
def ApiCall.ownSeq (ip : U32) : ApiCall → Option U32
  | sendBroadcast (.rreq m) => if m.srcIp = ip then some m.srcSeq else none
  | sendUnicast _ (.rrep m _) => if m.destIp = ip then some m.destSeq else none
  | _ => none

/-- The own numbers sent since a node was as it was, the latest first. -/
def numbersSent (n n' : Node) : List U32 :=
  (n'.log.take (n'.log.length - n.log.length)).filterMap (ApiCall.ownSeq n.ipAddress)

theorem numbersSent_of_append (n n' : Node) (calls : List ApiCall)
    (h : n'.log = calls ++ n.log) :
    numbersSent n n' = calls.filterMap (ApiCall.ownSeq n.ipAddress) := by
  have hlength : n'.log.length - n.log.length = calls.length := by
    rw [h, List.length_append, Nat.add_sub_cancel]
  unfold numbersSent
  rw [hlength, h, List.take_left]

/-- Executions side by side over a node. -/
abbrev NumberRun (count : Nat) := Config (Fin count) Node Op (Fin 256) Outcome

section Runs

variable {count : Nat}

def beginNumbers (calls : Fin count → NumberCall) (n : Node) : NumberRun count :=
  Config.start (fun i => (calls i).program) n

/-- One atomic step of one execution. -/
def numberStep : NumberRun count → Fin count → NumberRun count := threadStep Op.apply

/-- When an answer accesses the node's number, the number in the request is within
    half the range of it. -/
def AsksNear (calls : Fin count → NumberCall) (c : NumberRun count) (i : Fin count) : Prop :=
  match calls i, (c.threads i).program with
  | .reply _ m _, .read _ | .reply _ m _, .op (.writeSequenceNum _) _ =>
    |seqCompare m.destSeq c.shared.sequenceNum| < 2 ^ 31 - 1
  | _, _ => True

/-- When an answer is about to write its number, it is the one it would choose from
    the number the node has now. -/
def NotOvertaken (calls : Fin count → NumberCall) (c : NumberRun count) (i : Fin count) : Prop :=
  match calls i, (c.threads i).program with
  | .reply _ m _, .op (.writeSequenceNum seq) _ => seq = nextOwnSeq m c.shared.sequenceNum
  | _, _ => True

/-- The node's number after the next operation of a program. -/
def nextNumber (p : Handler) (n : Node) : U32 :=
  match p with
  | .op o _ => o.ownNumber n
  | _ => n.sequenceNum

/-- A step that takes the number on does not take it past where it began. -/
def NoRollover (base : U32) (c : NumberRun count) (i : Fin count) : Prop :=
  0 < seqCompare (nextNumber (c.threads i).program c.shared) c.shared.sequenceNum →
    offsetFrom base c.shared.sequenceNum <
      offsetFrom base (nextNumber (c.threads i).program c.shared)

instance (calls : Fin count → NumberCall) (c : NumberRun count) (i : Fin count) :
    Decidable (AsksNear calls c i) := by
  unfold AsksNear
  split <;> infer_instance

instance (calls : Fin count → NumberCall) (c : NumberRun count) (i : Fin count) :
    Decidable (NotOvertaken calls c i) := by
  unfold NotOvertaken
  split <;> infer_instance

instance (base : U32) (c : NumberRun count) (i : Fin count) : Decidable (NoRollover base c i) :=
  inferInstanceAs (Decidable (_ → _))

/-- The step leaves the number as new as it was, or newer. -/
def NumberGrows (c : NumberRun count) (i : Fin count) : Prop :=
  NotOlder (numberStep c i).shared.sequenceNum c.shared.sequenceNum

end Runs

/-! ### The numbers -/

/-- Counting up by one is newer. -/
theorem seqCompare_succ (x : U32) : 0 < seqCompare (x + 1) x := by
  have hone := signedDistance_add x 1 (by decide)
  rw [seqCompare_eq]
  exact hone ▸ (by decide)

/-- The number an answer chooses is newer, when the request's is near. -/
theorem nextOwnSeq_newer (m : RreqHeader) (x : U32)
    (hnear : |seqCompare m.destSeq x| < 2 ^ 31 - 1) : 0 < seqCompare (nextOwnSeq m x) x := by
  unfold nextOwnSeq
  simp only []
  split
  · split
    · exact seqCompare_succ x
    · rename_i hnot
      -- The request's number is not older than the successor, and near enough.
      have hge : 0 ≤ (m.destSeq - (x + 1)).toInt := Int.not_lt.mp hnot
      have hsplit : m.destSeq - x = (m.destSeq - (x + 1)) + 1 := by
        rw [sub_add_eq_sub_sub, sub_add_cancel]
      have hlt : (m.destSeq - (x + 1)).toInt < 2 ^ 31 := BitVec.toInt_lt
      have hone : (1 : U32).toInt = 1 := rfl
      unfold seqCompare at hnear ⊢
      rw [hsplit, BitVec.toInt_add, hone, abs_lt] at hnear
      rw [hsplit, BitVec.toInt_add, hone]
      generalize (m.destSeq - (x + 1)).toInt = d at hge hlt hnear
      by_cases htop : d = 2 ^ 31 - 1
      · -- Exactly half the range ahead counts as behind.
        rw [htop] at hnear
        exact absurd hnear.1 (by decide)
      · have hsum : (d + 1).bmod (2 ^ 32) = d + 1 :=
          Int.bmod_eq_of_le_mul_two (by omega) (by omega)
        rw [hsum]
        omega
  · exact seqCompare_succ x

/-! ### How far an execution is -/

/-- How far an execution is: before it has taken its number, with a number not yet
    sent, or past sending it. -/
inductive Phase where
  | fresh
  | taken (seq : U32)
  | sent

/-- The number taken and not yet sent. -/
def Phase.number : Phase → Option U32
  | taken seq => some seq
  | fresh | sent => none

/-- The operation leaves the own number and sends none. -/
def Op.Silent (ip : U32) (o : Op) : Prop :=
  ∀ n, o.ownNumber n = n.sequenceNum ∧ (o.calls n).filterMap (ApiCall.ownSeq ip) = []

/-- The operation leaves the own number and sends this one. -/
def Op.Tells (ip seq : U32) (o : Op) : Prop :=
  ∀ n, o.ownNumber n = n.sequenceNum ∧ (o.calls n).filterMap (ApiCall.ownSeq ip) = [seq]

/-- What is left to do of an execution that is so far. -/
inductive NumberCall.Stage (ip : U32) (call : NumberCall) : Handler → Phase → Prop where
  | start : Stage ip call call.program .fresh
  | chosen (env : Env) (m : RreqHeader) (senderIp seq : U32) (h : call = .reply env m senderIp) :
      Stage ip call (answerWith env m senderIp seq) .fresh
  | taken (p : Handler) (seq : U32) (h : p.Once (Op.Tells ip seq) (Op.Silent ip)) :
      Stage ip call p (.taken seq)
  | sent (p : Handler) (h : p.Every (Op.Silent ip)) : Stage ip call p .sent

/-- The first request of a search tells the number in it. -/
theorem ringStep_once (env : Env) (t : SearchThread) (rreq : RreqHeader) (ttl : U32) :
    (ringStep env t rreq ttl).Once (Op.Tells rreq.srcIp rreq.srcSeq) (Op.Silent rreq.srcIp) := by
  have htells : ∀ ttl stage, (Op.sendRreq t.id rreq ttl stage).Tells rreq.srcIp rreq.srcSeq := by
    intro ttl stage n
    refine ⟨rfl, ?_⟩
    simp only [Op.calls, List.filterMap_cons, List.filterMap_nil, ApiCall.ownSeq, if_true]
  unfold ringStep
  split
  · exact Or.inl ⟨htells _ _, fun _ _ => trivial⟩
  · -- The retries begin with their first request.
    exact Or.inl ⟨htells _ _, fun _ _ => trivial⟩

/-- A search that has taken its number. -/
theorem search_once (env : Env) (t : SearchThread) (n : Node) :
    Prog.Once (Op.Tells n.ipAddress n.sequenceNum) (Op.Silent n.ipAddress)
      (.lock (slotOf t.dest) <| .read fun n' => .unlock (slotOf t.dest) <|
        match n'.getRoutingEntry t.dest with
        | none => .ret .waits
        | some destEntry => ringStep env t (searchRequest n.ipAddress n.sequenceNum destEntry)
            (startTtl destEntry) : Handler) := by
  intro n'
  simp only [Prog.Once]
  split
  · trivial
  · exact ringStep_once env t (searchRequest n.ipAddress n.sequenceNum _) _

/-- An answer that has written its number. -/
theorem answer_once (env : Env) (m : RreqHeader) (senderIp ip seq : U32) :
    Prog.Once (Op.Tells ip seq) (Op.Silent ip)
      (.op (.sendUnicast senderIp (.rrep (generateRrepMessage (env.memory .rrep) 0 ip seq m.srcIp
        (toU32 myRouteTimeout)) [])) fun _ _ => acceptPacket : Handler) := by
  refine Or.inl ⟨fun n => ⟨rfl, ?_⟩, fun _ _ => trivial⟩
  simp only [Op.calls, List.filterMap_cons, List.filterMap_nil, ApiCall.ownSeq,
    generateRrepMessage, if_true]

/-- The own number after the operation of a move. -/
theorem afterMove_sequenceNum (o? : Option Op) (n : Node) :
    (afterMove Op.apply o? n).sequenceNum =
      match o? with
      | none => n.sequenceNum
      | some o => o.ownNumber n := by
  cases o? with
  | none => rfl
  | some o => exact apply_sequenceNum n o

/-- The own numbers the operation of a move sends. -/
def toldBy (ip : U32) (o? : Option Op) (n : Node) : List U32 :=
  match o? with
  | none => []
  | some o => (o.calls n).filterMap (ApiCall.ownSeq ip)

/-- What a step of an execution does: nothing with its number, take it by setting
    the node's, or send it. -/
inductive NumberMove (ip : U32) (call : NumberCall) (n : Node) (p : Handler) (o? : Option Op)
    (p' : Handler) : Phase → Phase → Prop where
  | keep (ph : Phase) (hnumber : (afterMove Op.apply o? n).sequenceNum = n.sequenceNum)
      (htold : toldBy ip o? n = []) (hstage : call.Stage ip p' ph) :
      NumberMove ip call n p o? p' ph ph
  | take (hnumber : (afterMove Op.apply o? n).sequenceNum = nextNumber p n)
      (htold : toldBy ip o? n = [])
      (hhow : (∃ next, p = .op .incrementSequenceNum next) ∨ ∃ env m s seq next,
        call = .reply env m s ∧ p = .op (.writeSequenceNum seq) next)
      (hstage : call.Stage ip p' (.taken (nextNumber p n))) :
      NumberMove ip call n p o? p' .fresh (.taken (nextNumber p n))
  | tell (seq : U32) (hnumber : (afterMove Op.apply o? n).sequenceNum = n.sequenceNum)
      (htold : toldBy ip o? n = [seq]) (hstage : call.Stage ip p' .sent) :
      NumberMove ip call n p o? p' (.taken seq) .sent

/-- A move without an operation, or with a silent one. -/
theorem silent_move (ip : U32) (o? : Option Op) (n : Node)
    (h : ∀ o, o? = some o → o.Silent ip) :
    (afterMove Op.apply o? n).sequenceNum = n.sequenceNum ∧ toldBy ip o? n = [] := by
  rw [afterMove_sequenceNum]
  cases o? with
  | none => exact ⟨rfl, rfl⟩
  | some o => exact h o rfl n

theorem stage_move (call : NumberCall) (n : Node) (p : Handler) (o? : Option Op) (p' : Handler)
    (ph : Phase) (hstage : call.Stage n.ipAddress p ph) (hmove : Prog.Move Op.apply n p o? p') :
    ∃ ph', NumberMove n.ipAddress call n p o? p' ph ph' := by
  -- A call has not begun, has chosen its number, holds it, or has told it; each move
  -- takes it at most one further.
  cases hstage with
  | start =>
      cases call with
      | search env t =>
          cases hmove
          refine ⟨_, .take rfl rfl (Or.inl ⟨_, rfl⟩) (.taken _ _ ?_)⟩
          exact search_once env t (Op.incrementSequenceNum.apply n)
      | reply env m senderIp =>
          cases hmove
          exact ⟨.fresh, .keep _ rfl rfl (.chosen env m senderIp _ rfl)⟩
  | chosen env m senderIp seq h =>
      cases hmove
      refine ⟨_, .take rfl rfl (Or.inr ⟨env, m, senderIp, seq, _, h, rfl⟩) (.taken _ _ ?_)⟩
      exact answer_once env m senderIp n.ipAddress seq
  | taken p seq h =>
      rcases Prog.once_move _ _ h hmove with ⟨o, rfl, htells, hrest⟩ | ⟨hsilent, hrest⟩
      · refine ⟨_, .tell seq ?_ (htells n).2 (.sent p' hrest)⟩
        rw [afterMove_sequenceNum]
        exact (htells n).1
      · have hquiet := silent_move n.ipAddress o? n hsilent
        exact ⟨_, .keep _ hquiet.1 hquiet.2 (.taken p' seq hrest)⟩
  | sent p h =>
      rcases Prog.every_move _ h hmove with ⟨hsilent, hrest⟩
      have hquiet := silent_move n.ipAddress o? n hsilent
      exact ⟨_, .keep _ hquiet.1 hquiet.2 (.sent p' hrest)⟩

/-! ### Runs -/

section Runs

variable {count : Nat} (calls : Fin count → NumberCall)

/-- The executions and the node as a ledger: the node's number is the counter, and
    a number is handed in by being sent. -/
def ledgerOf (n : Node) (c : NumberRun count) (phase : Fin count → Phase) :
    Ledger (Fin count) U32 :=
  { counter := c.shared.sequenceNum, held := fun i => (phase i).number
    spent := numbersSent n c.shared }

/-- Every execution is at some stage, and the numbers make a sound ledger. -/
structure NumbersInv (n : Node) (c : NumberRun count) (phase : Fin count → Phase) : Prop where
  ipAddress : c.shared.ipAddress = n.ipAddress
  log : ∃ new, c.shared.log = new ++ n.log
  stage : ∀ i, (calls i).Stage n.ipAddress (c.threads i).program (phase i)
  sound : (ledgerOf n c phase).Sound (offsetFrom n.sequenceNum)

/-- The record of calls after a move. -/
theorem afterMove_log (o? : Option Op) (n n' : Node) (hlog : ∃ new, n'.log = new ++ n.log) :
    (∃ new, (afterMove Op.apply o? n').log = new ++ n.log) ∧
      numbersSent n (afterMove Op.apply o? n') =
        toldBy n.ipAddress o? n' ++ numbersSent n n' := by
  rcases hlog with ⟨new, hnew⟩
  cases o? with
  | none => exact ⟨⟨new, hnew⟩, rfl⟩
  | some o =>
      have hafter : (o.apply n').log = (o.calls n' ++ new) ++ n.log := by
        rw [apply_log, hnew, List.append_assoc]
      refine ⟨⟨_, hafter⟩, ?_⟩
      simp only [afterMove]
      rw [numbersSent_of_append n _ _ hafter, numbersSent_of_append n n' new hnew,
        List.filterMap_append]
      rfl

theorem afterMove_ipAddress (o? : Option Op) (n : Node) :
    (afterMove Op.apply o? n).ipAddress = n.ipAddress := by
  cases o? with
  | none => rfl
  | some o => exact apply_ipAddress n o

/-- An execution that takes a number takes a newer one, if it is not overtaken. -/
theorem take_newer (c : NumberRun count) (i : Fin count) (hnear : AsksNear calls c i)
    (hcurrent : NotOvertaken calls c i)
    (hhow : (∃ next, (c.threads i).program = .op .incrementSequenceNum next) ∨
      ∃ env m s seq next, calls i = .reply env m s ∧
        (c.threads i).program = .op (.writeSequenceNum seq) next) :
    0 < seqCompare (nextNumber (c.threads i).program c.shared) c.shared.sequenceNum := by
  rcases hhow with ⟨next, hp⟩ | ⟨env, m, s, seq, next, hcall, hp⟩
  · rw [hp]
    exact seqCompare_succ _
  · simp only [AsksNear, hcall, hp] at hnear
    simp only [NotOvertaken, hcall, hp] at hcurrent
    rw [hp]
    simp only [nextNumber, Op.ownNumber, hcurrent]
    exact nextOwnSeq_newer m _ hnear

/-- One step of one execution. -/
theorem numbersInv_step (n : Node) (c : NumberRun count) (phase : Fin count → Phase)
    (i : Fin count) (h : NumbersInv calls n c phase) (hnear : AsksNear calls c i)
    (hcurrent : NotOvertaken calls c i) (hbase : NoRollover n.sequenceNum c i) :
    NumberGrows c i ∧ ∃ phase', NumbersInv calls n (numberStep c i) phase' := by
  rcases threadStep_move Op.apply c i with hsame | ⟨o?, hmove, hshared, hother⟩
  · refine ⟨?_, phase, ?_⟩
    · unfold NumberGrows numberStep
      rw [hsame]
      exact notOlder_refl _
    · unfold numberStep
      rw [hsame]
      exact h
  · have hstage := h.stage i
    rw [← h.ipAddress] at hstage
    rcases stage_move (calls i) c.shared _ o? _ (phase i) hstage hmove with ⟨ph', hnumber⟩
    rcases afterMove_log o? n c.shared h.log with ⟨hlog, htold⟩
    -- What the step leaves but for the ledger.
    have hrest : ∀ ph'', (calls i).Stage c.shared.ipAddress
        ((threadStep Op.apply c i).threads i).program ph'' →
        ∀ l, ledgerOf n (numberStep c i) (Function.update phase i ph'') = l →
        l.Sound (offsetFrom n.sequenceNum) →
        NumbersInv calls n (numberStep c i) (Function.update phase i ph'') := by
      intro ph'' hstage' l hl hsound
      refine ⟨?_, ?_, fun j => ?_, hl ▸ hsound⟩
      · unfold numberStep
        rw [hshared, afterMove_ipAddress, h.ipAddress]
      · unfold numberStep
        rw [hshared]
        exact hlog
      · by_cases hj : j = i
        · rw [hj, Function.update_self, ← h.ipAddress]
          exact hstage'
        · unfold numberStep
          rw [Function.update_of_ne hj, hother j hj]
          exact h.stage j
    have hheld : ∀ ph'', (fun j => (Function.update phase i ph'' j).number) =
        Function.update (fun j => (phase j).number) i ph''.number :=
      fun ph'' => funext (Function.apply_update (fun _ => Phase.number) phase i ph'')
    have hledger : ∀ ph'', ledgerOf n (numberStep c i) (Function.update phase i ph'') =
        { counter := (afterMove Op.apply o? c.shared).sequenceNum
          held := Function.update (fun j => (phase j).number) i ph''.number
          spent := toldBy c.shared.ipAddress o? c.shared ++ numbersSent n c.shared } := by
      intro ph''
      unfold ledgerOf numberStep
      rw [hshared, hheld, htold, h.ipAddress]
    generalize hph : phase i = ph at hnumber
    cases hnumber with
    | keep _ hnum hsilent hstage' =>
        refine ⟨?_, _, hrest _ hstage' (ledgerOf n c phase) ?_ h.sound⟩
        · unfold NumberGrows numberStep
          rw [hshared, hnum]
          exact notOlder_refl _
        · rw [hledger, hnum, hsilent, ← hph, Function.update_eq_self]
          rfl
    | take hnum hsilent hhow hstage' =>
        have hnewer := take_newer calls c i hnear hcurrent hhow
        refine ⟨?_, _, hrest _ hstage'
          ((ledgerOf n c phase).draw i (nextNumber (c.threads i).program c.shared)) ?_
          (sound_draw _ _ h.sound i _ (hbase hnewer))⟩
        · unfold NumberGrows numberStep
          rw [hshared, hnum]
          exact hnewer.le
        · rw [hledger, hnum, hsilent]
          rfl
    | tell seq hnum hsent hstage' =>
        have hholds : (ledgerOf n c phase).held i = some seq := by
          simp only [ledgerOf, hph]
          rfl
        refine ⟨?_, _, hrest _ hstage' ((ledgerOf n c phase).handIn i seq) ?_
          (sound_handIn _ _ h.sound i seq hholds)⟩
        · unfold NumberGrows numberStep
          rw [hshared, hnum]
          exact notOlder_refl _
        · rw [hledger, hnum, hsent]
          rfl

/-- In every run in which no answer is overtaken before it writes and the number
    does not come round, each step leaves the number as new as it was or newer, and
    all numbers sent are distinct. -/
theorem own_numbers_distinct (n : Node) (schedule : List (Fin count))
    (hnear : AllSteps numberStep (AsksNear calls) (beginNumbers calls n) schedule)
    (hok : AllSteps numberStep
      (fun c i => NotOvertaken calls c i ∧ NoRollover n.sequenceNum c i)
      (beginNumbers calls n) schedule) :
    AllSteps numberStep NumberGrows (beginNumbers calls n) schedule ∧
      (numbersSent n (run numberStep (beginNumbers calls n) schedule).shared).Nodup := by
  have hstart : NumbersInv calls n (beginNumbers calls n) (fun _ => .fresh) := by
    refine ⟨rfl, ⟨[], rfl⟩, fun i => .start, ⟨?_, ?_, nofun, nofun, nofun⟩⟩
    · rw [ledgerOf, numbersSent_of_append n (beginNumbers calls n).shared [] rfl]
      exact List.nodup_nil
    · rw [ledgerOf, numbersSent_of_append n (beginNumbers calls n).shared [] rfl]
      exact nofun
  generalize beginNumbers calls n = c at hstart hnear hok
  -- What the induction needs of the beginning is the invariant alone.
  generalize (fun _ : Fin count => Phase.fresh) = phase at hstart
  induction schedule generalizing c phase with
  | nil => exact ⟨trivial, hstart.sound.nodup⟩
  | cons i rest ih =>
      rcases numbersInv_step calls n c phase i hstart hnear.1 hok.1.1 hok.1.2 with
        ⟨hgrows, phase', hnext⟩
      rcases ih _ hnear.2 hok.2 phase' hnext with ⟨hrest, hnodup⟩
      exact ⟨⟨hgrows, hrest⟩, hnodup⟩

end Runs

/-- A node that has begun to search for a destination. -/
def searchingNode : Node :=
  run step (Node.boot 0x01000000 0xFF000000 fun _ => 0) [⟨.clear, .outgoing 0x03000000⟩]

/-- The search begins while a request for the node is being answered. -/
def searchAndReply : Fin 2 → NumberCall
  | 0 => .search .clear { id := 1, dest := 0x03000000, stage := .starting }
  | 1 => .reply .clear (generateRreqMessage (rreqUnknown.setWidth 8) 1 0x01000000 0 0x04000000 1)
      0x02000000

/-- One after the other they send different numbers. -/
theorem own_numbers_distinct_searchAndReply :
    AllSteps numberStep NumberGrows (beginNumbers searchAndReply searchingNode)
        [0, 0, 0, 0, 0, 1, 1, 1] ∧
      (numbersSent searchingNode (run numberStep (beginNumbers searchAndReply searchingNode)
        [0, 0, 0, 0, 0, 1, 1, 1]).shared).Nodup :=
  own_numbers_distinct searchAndReply searchingNode [0, 0, 0, 0, 0, 1, 1, 1]
    (by decide +kernel) (by decide +kernel)

/-- The search takes and sends its number between the two accesses of the answer,
    which sends the same one. -/
theorem not_own_numbers_distinct_race :
    ¬ ∀ (count : Nat) (calls : Fin count → NumberCall) (n : Node) (schedule : List (Fin count)),
      count < 2 ^ 31 →
      AllSteps numberStep (AsksNear calls) (beginNumbers calls n) schedule →
      AllSteps numberStep NumberGrows (beginNumbers calls n) schedule ∧
        (numbersSent n (run numberStep (beginNumbers calls n) schedule).shared).Nodup := by
  intro h
  have hboth := h 2 searchAndReply searchingNode [1, 0, 0, 0, 0, 0, 1, 1] (by decide)
    (by decide +kernel)
  exact absurd hboth.2 (by decide +kernel)

end OpenManet
