import OpenManet.Core.Machine

/-!
# Searches Section by Section

Calls of `send_rreq` for one destination, executions of `recv_rrep` and search
threads side by side. `Core.Machine` runs every handler to its end in one step;
here the steps are the sections between a lock and its unlock, and for
`send_rreq` each access to `rreq_search`, most of which are made without the
mutex.

A call counts the packet filter calls recorded when the search it waits for
started, so that what has happened since can be told from the record.

## Main definitions

* `CallStage`, `callStep`: A call of `send_rreq`, access by access.
* `ReplyTask`, `ReplyTask.nextSection`: An execution of `recv_rrep`, section by
  section.
* `Sections`, `sectionStep`: All of them over one node.

## Theorems

* `sections_recvRrep`: The sections one after the other are `recv_rrep`.
* `callSteps_sendRreq`: A call alone does what `send_rreq` does up to its loop.
-/

namespace OpenManet

/-- `rreq_search` read through a pointer to the entry for an address. -/
def Node.searchAt (ip : U32) (n : Node) : RreqStatus :=
  match n.getRoutingEntry ip with
  | none => .searchNone
  | some e => e.rreqSearch

/-! ### Calls of `send_rreq` -/

/-- What a call of `send_rreq` is about to do. -/
inductive CallStage where
  /-- Find the entry or make it. -/
  | entered
  /-- Test for a search that has just failed. -/
  | found (new : Bool)
  /-- Stop the timer of an entry that is not searched for. -/
  | passed (new : Bool)
  /-- See whether a search is going on. -/
  | joining
  /-- Start one. -/
  | starting
  /-- Read the state of the search in the loop. -/
  | waiting (since : Nat)
  /-- Read the outcome. -/
  | left (since : Nat)
  | decided (since : Nat) (outcome : RreqStatus)
  | returned (since : Nat) (verdict : Verdict)
  deriving DecidableEq, Repr

/-- The next access of a call, with `searchStart` what was recorded when the last
    search started. -/
def callStep (env : Env) (dest : U32) (searchStart : Nat) (n : Node) :
    CallStage → Node × CallStage
  | .entered =>
    ((Op.create env dest 0 .seqInvalid 0 0 (toU32 myRouteTimeout)).apply n,
      .found (n.isNew dest))
  | .found new =>
    if n.searchAt dest = .searchFailed ∧ n.isValid dest = false then
      (n, .returned searchStart .packetDrop)
    else (n, .passed new)
  | .passed new =>
    if new = false ∧ n.searchAt dest ≠ .searchSearching then
      ((Op.write dest .stopTimer).apply n, .joining)
    else (n, .joining)
  | .joining =>
    if n.searchAt dest = .searchSearching then (n, .waiting searchStart) else (n, .starting)
  | .starting => ((Op.startSearch dest).apply n, .waiting n.log.length)
  | .waiting since =>
    if n.searchAt dest = .searchSearching then (n, .waiting since) else (n, .left since)
  | .left since =>
    ((Op.sendUnicast n.ipAddress .timing).apply n, .decided since (n.searchAt dest))
  | .decided since outcome =>
    if outcome = .searchFailed then
      ((Op.write dest (.timer env 500)).apply n, .returned since .packetDrop)
    else ((Op.write dest .searchNone).apply n, .returned since .packetAccept)
  | .returned since verdict => (n, .returned since verdict)

/-! ### Executions of `recv_rrep` -/

/-- How far an execution of `recv_rrep` has come. -/
inductive ReplyStage where
  | arrived
  /-- Past the section that publishes the outcome. -/
  | published
  /-- Past the previous hop. -/
  | hopDone
  | done
  deriving DecidableEq, Repr

structure ReplyTask where
  senderIp : U32
  message : RrepHeader
  stage : ReplyStage

/-- The next section, and the stage after it. -/
def ReplyTask.nextSection (env : Env) (t : ReplyTask) : Handler × ReplyStage :=
  match t.stage with
  | .arrived => (publishFound t.message acceptPacket, .published)
  | .published =>
    if t.message.srcIp = 0 then
      (recvHello env t.senderIp (incrementHopRrep t.message), .done)
    else (previousHopSection env t.senderIp t.message.destIp acceptPacket, .hopDone)
  | .hopDone => (installForwardRoute env t.senderIp (incrementHopRrep t.message), .done)
  | .done => (acceptPacket, .done)

/-! ### Side by side -/

structure Sections where
  node : Node
  calls : List CallStage
  replies : List ReplyTask
  /-- What was recorded when the last search started. -/
  searchStart : Nat

inductive SectionEvent where
  /-- A call begins. -/
  | call
  /-- The call at this position makes its next access. -/
  | advance (k : Nat)
  /-- A reply arrives. -/
  | reply (senderIp : U32) (message : RrepHeader)
  /-- The execution at this position runs its next section. -/
  | section (k : Nat)
  /-- The search thread of this id runs to its next sleep. -/
  | search (id : Nat)

structure SectionInput where
  env : Env
  event : SectionEvent

/-- Before any call or reply. -/
def Sections.start (n : Node) : Sections :=
  { node := n, calls := [], replies := [], searchStart := n.log.length }

/-- One access of one call. -/
def Sections.advance (env : Env) (dest : U32) (k : Nat) (stage : CallStage) (s : Sections) :
    Sections :=
  let after := callStep env dest s.searchStart s.node stage
  { s with
    node := after.1
    calls := s.calls.set k after.2
    searchStart := if stage = .starting then s.node.log.length else s.searchStart }

/-- One section of one reply. -/
def Sections.runSection (env : Env) (k : Nat) (t : ReplyTask) (s : Sections) : Sections :=
  let next := t.nextSection env
  { s with
    node := (next.1.exec Op.apply s.node).1
    replies := s.replies.set k { t with stage := next.2 } }

def sectionStep (dest : U32) (s : Sections) (input : SectionInput) : Sections :=
  match input.event with
  | .call => { s with calls := s.calls ++ [.entered] }
  | .advance k =>
    match s.calls[k]? with
    | none => s
    | some stage => s.advance input.env dest k stage
  | .reply senderIp message =>
    { s with
      replies := s.replies ++ [{ senderIp := senderIp, message := message, stage := .arrived }] }
  | .section k =>
    match s.replies[k]? with
    | none => s
    | some t => s.runSection input.env k t
  | .search id => { s with node := step s.node { env := input.env, event := .search id } }

/-! ### The sections make up the handlers -/

/-- The next section of a reply that nothing runs beside. -/
def replyAlone (env : Env) (p : Node × ReplyTask) : Node × ReplyTask :=
  let next := p.2.nextSection env
  ((next.1.exec Op.apply p.1).1, { p.2 with stage := next.2 })

theorem publishFound_exec (m : RrepHeader) (next : Handler) (n : Node) :
    (publishFound m next).exec Op.apply n =
      next.exec Op.apply ((publishFound m acceptPacket).exec Op.apply n).1 := by
  simp only [publishFound, Prog.exec]
  split <;> rfl

theorem sections_recvRrep (env : Env) (s : U32) (m : RrepHeader) (n : Node) :
    (Nat.iterate (replyAlone env) 3 (n, { senderIp := s, message := m, stage := .arrived })).1 =
      ((recvRrep env s m).exec Op.apply n).1 := by
  unfold recvRrep
  rw [publishFound_exec]
  generalize hn : ((publishFound m acceptPacket).exec Op.apply n).1 = n'
  have hfirst : replyAlone env (n, { senderIp := s, message := m, stage := .arrived }) =
      (n', { senderIp := s, message := m, stage := .published }) := by
    rw [← hn]
    rfl
  rw [Function.iterate_succ_apply, hfirst, Function.iterate_succ_apply]
  by_cases hhello : m.srcIp = 0
  · have hsecond : replyAlone env (n', { senderIp := s, message := m, stage := .published }) =
        (((recvHello env s (incrementHopRrep m)).exec Op.apply n').1,
          { senderIp := s, message := m, stage := .done }) := by
      simp only [replyAlone, ReplyTask.nextSection, if_pos hhello]
    rw [hsecond, if_pos hhello]
    rfl
  · have hsecond : replyAlone env (n', { senderIp := s, message := m, stage := .published }) =
        (((previousHopSection env s m.destIp acceptPacket).exec Op.apply n').1,
          { senderIp := s, message := m, stage := .hopDone }) := by
      simp only [replyAlone, ReplyTask.nextSection, if_neg hhello]
    rw [hsecond, if_neg hhello]
    rfl

/-- The next access of a call that nothing runs beside. -/
def callAlone (env : Env) (dest : U32) (searchStart : Nat) (p : Node × CallStage) :
    Node × CallStage :=
  callStep env dest searchStart p.1 p.2

/-- The timer is no part of the state of a search. -/
theorem stopTimer_searchAt (dest : U32) (n : Node) :
    ((Op.write dest .stopTimer).apply n).searchAt dest = n.searchAt dest := by
  simp only [Node.searchAt, Op.apply, Node.getRoutingEntry_eq,
    Node.updateEntry_slots_of_keep dest (Write.apply .stopTimer) (fun _ => rfl), if_true]
  cases n.routes.slots (slotOf dest) <;> rfl

/-- With no search going on the call begins one, and waits for it from then on. -/
theorem callAlone_starts (env : Env) (dest : U32) (searchStart : Nat) (n : Node)
    (hidle : n.searchAt dest ≠ .searchSearching) :
    Nat.iterate (callAlone env dest searchStart) 2 (n, .joining) =
      ((Op.startSearch dest).apply n, .waiting n.log.length) := by
  have hjoining : callAlone env dest searchStart (n, .joining) = (n, .starting) := if_neg hidle
  rw [Function.iterate_succ_apply, hjoining]
  rfl

/-- A call alone reaches its loop, or returns because a search has just failed, and
    leaves the node as `send_rreq` leaves it. -/
theorem callSteps_sendRreq (env : Env) (dest : U32) (searchStart : Nat) (n : Node) :
    let after := Nat.iterate (callAlone env dest searchStart) 5 (n, .entered)
    (after.2 = .returned searchStart .packetDrop ∧
        ((sendRreq env dest).exec Op.apply n).1 = after.1) ∨
      ((∃ since, after.2 = .waiting since) ∧
        ((sendRreq env dest).exec Op.apply n).1 = (Op.beginWait dest).apply after.1) := by
  let f := callAlone env dest searchStart
  rcases Node.createOrGet_found env dest 0 .seqInvalid 0 0 (toU32 myRouteTimeout) n with ⟨e, he⟩
  generalize hn : n.createOrGetRoutingEntry env dest 0 .seqInvalid 0 0 (toU32 myRouteTimeout) = n₁
    at he
  have hsend : (sendRreq env dest).exec Op.apply n =
      (startOrJoin dest (n.isNew dest) n₁).exec Op.apply n₁ := by
    rw [← hn]
    rfl
  -- The first step finds the entry or creates it, as `send_rreq` does.
  have hentered : f (n, .entered) = (n₁, .found (n.isNew dest)) := by
    rw [← hn]
    rfl
  have hsearch : n₁.searchAt dest = e.rreqSearch := by
    simp only [Node.searchAt, he]
  have hvalid : n₁.isValid dest = false ↔ e.status = .routeInvalid := by
    simp only [Node.isValid, he, Option.any_some]
    cases e.status <;> decide
  generalize n.isNew dest = new at hsend hentered
  simp only [hsend, startOrJoin, he]
  rw [show callAlone env dest searchStart = f from rfl, Function.iterate_succ_apply, hentered]
  -- A search that has just failed for a route that is down drops the packet.
  by_cases hfailed : e.rreqSearch = .searchFailed ∧ e.status = .routeInvalid
  · have hfound : f (n₁, .found new) = (n₁, .returned searchStart .packetDrop) :=
      if_pos ⟨hsearch.trans hfailed.1, hvalid.mpr hfailed.2⟩
    rw [if_pos hfailed, Function.iterate_succ_apply, hfound]
    exact Or.inl ⟨rfl, rfl⟩
  · have hfound : f (n₁, .found new) = (n₁, .passed new) :=
      if_neg (fun h => hfailed ⟨hsearch.symm.trans h.1, hvalid.mp h.2⟩)
    rw [if_neg hfailed, Function.iterate_succ_apply, hfound, Function.iterate_succ_apply]
    -- A search that goes on is joined; otherwise one begins.
    by_cases hgoing : e.rreqSearch = .searchSearching
    · have hpassed : f (n₁, .passed new) = (n₁, .joining) :=
        if_neg (fun h => h.2 (hsearch.trans hgoing))
      have hjoining : f (n₁, .joining) = (n₁, .waiting searchStart) :=
        if_pos (hsearch.trans hgoing)
      have hwaiting : f (n₁, .waiting searchStart) = (n₁, .waiting searchStart) :=
        if_pos (hsearch.trans hgoing)
      rw [if_pos hgoing, hpassed, Function.iterate_succ_apply, hjoining,
        Function.iterate_succ_apply, hwaiting]
      exact Or.inr ⟨⟨searchStart, rfl⟩, rfl⟩
    · rw [if_neg hgoing]
      -- The timer of an entry that was there is stopped before.
      have hidle : n₁.searchAt dest ≠ .searchSearching := hsearch ▸ hgoing
      cases new with
      | true =>
          have hpassed : f (n₁, .passed true) = (n₁, .joining) := rfl
          rw [hpassed, callAlone_starts env dest searchStart n₁ hidle]
          exact Or.inr ⟨⟨_, rfl⟩, rfl⟩
      | false =>
          have hpassed : f (n₁, .passed false) = ((Op.write dest .stopTimer).apply n₁, .joining) :=
            if_pos ⟨rfl, hidle⟩
          have hidle' : ((Op.write dest .stopTimer).apply n₁).searchAt dest ≠ .searchSearching := by
            rw [stopTimer_searchAt]
            exact hidle
          rw [hpassed, callAlone_starts env dest searchStart _ hidle']
          exact Or.inr ⟨⟨_, rfl⟩, rfl⟩

end OpenManet
