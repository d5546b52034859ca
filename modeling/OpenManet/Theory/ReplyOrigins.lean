import OpenManet.Theory.Destinations

/-!
# Where a Reply Comes From

A reply names the destination it is about and the originator that asked. It is made from a
request, by the destination or by a node with a route to it, and passed on with both
addresses as they are; the gratuitous one for the destination has them the other way
round. A hello is a reply too, about the node that broadcasts it, and names no originator.

So no reply comes unasked: behind every one in the air is a request that a search has
sent, of the originator for the destination or of the destination for the originator. A
hello is not passed on, so one in the air has been broadcast by the node it is about.

## Main definitions

* `RrepHeader.Answers`: The reply is one to the request.
* `RrepHeader.MadeFrom`: Why a node sends a reply.

## Theorems

* `step_replies`: The replies a step sends.
* `replies_answer_requests`: Behind every reply is a request.
-/

namespace OpenManet

/-- The reply is about the destination of the request and for its originator, or it tells
    the destination about the originator, with the number of the request. -/
def RrepHeader.Answers (request : RreqHeader) (m : RrepHeader) : Prop :=
  (m.destIp = request.destIp ∧ m.srcIp = request.srcIp) ∨
    (m.destIp = request.srcIp ∧ m.destSeq = request.srcSeq ∧ m.srcIp = request.destIp)

/-- A node with this address sends the reply by this call upon the event: as a hello of its
    own, upon a request, or as one that has arrived, one hop further on. -/
inductive RrepHeader.MadeFrom (event : Event) (ip : U32) (c : ApiCall) (m : RrepHeader) : Prop where
  | hello (hsrc : m.srcIp = 0) (hdest : m.destIp = ip) (hcall : c = .sendBroadcast (.rrep m []))
  | answer (s : U32) (request : RreqHeader) (hevent : event = .control s (.rreq request))
      (hanswers : m.Answers request)
  | passedOn (s : U32) (m₀ : RrepHeader) (hevent : event = .control s (.rrep m₀))
      (hasked : m₀.srcIp ≠ 0) (hsame : m = incrementHopRrep m₀)

/-! ### One step -/

/-- The call, if it sends a reply, does so for a reason. -/
def ApiCall.RepliesFrom (event : Event) (ip : U32) (c : ApiCall) : Prop :=
  ∀ m beyond, c.packet = some (.rrep m beyond) → m.MadeFrom event ip c

theorem calls_replies (event : Event) (o : Op) (n : Node) (hguard : o.Guard event n) :
    ∀ c ∈ o.calls n, c.RepliesFrom event n.ipAddress := by
  intro c hc m beyond hpacket
  cases o with
  | sendRreq id rreq ttl stage =>
      rcases List.mem_singleton.mp hc with rfl
      cases hpacket
  | sendUnicast dest packet =>
      rcases List.mem_singleton.mp hc with rfl
      cases hpacket
      generalize hm : Packet.rrep m beyond = packet at hguard
      cases hguard with
      | ownReply env request hevent hown =>
          cases hm
          exact .answer dest request hevent (Or.inl ⟨hown.symm, rfl⟩)
      | tableReply env request e hevent =>
          cases hm
          exact .answer dest request hevent (Or.inl ⟨rfl, rfl⟩)
      | gratuitousReply env s request hevent =>
          cases hm
          exact .answer s request hevent (Or.inr ⟨rfl, rfl, rfl⟩)
      | passedOn s m₀ hevent hasked =>
          cases hm
          exact .passedOn s m₀ hevent hasked rfl
      | error | noError | timing => cases hm
  | sendBroadcast packet =>
      rcases List.mem_singleton.mp hc with rfl
      cases hpacket
      generalize hm : Packet.rrep m beyond = packet at hguard
      cases hguard with
      | hello =>
          cases hm
          exact .hello rfl rfl rfl
      | request | error | noError => cases hm
  | _ =>
      rw [packet_of_isRouteCall c (calls_isRouteCall n _ id c hc)] at hpacket
      cases hpacket

/-- The replies a step sends are made from the request that has arrived, or are the reply
    that has, or a hello. -/
theorem step_replies (n : Node) (input : Input) :
    ∀ c ∈ stepCalls n input, c.RepliesFrom input.event n.ipAddress := by
  refine stepCalls_of_ops _ n input ?_
  have hmeets := Prog.Meets.with_invariant (fun n' : Node => n'.ipAddress = n.ipAddress)
    (fun o n' hip _ => (apply_ipAddress n' o).trans hip) input.handler n rfl
    (handler_guard n input)
  refine Prog.Meets.imp (fun o n' h => ?_) _ n hmeets
  rw [← h.2]
  exact calls_replies input.event o n' h.1

/-! ### The network -/

section Network

variable {ι : Type}

theorem requestsCarried_of_carried (net : Network ι) (a : NetInput ι) (h : Carried net a) :
    RequestsCarried net a := by
  refine requestsCarried_of_overLinks (fun _ _ => True) net a ?_
  rcases a with ⟨node, env, event⟩
  cases event with
  | control s message =>
      rcases h with ⟨i, packet, hs, hcarries, hsent⟩
      exact ⟨i, packet, trivial, hs, hcarries, hsent⟩
  | data | outgoing | forwarded | search | wait | expire | rreqIdExpire | hello => trivial

/-- A reply that arrives is in flight. -/
theorem inFlight_of_carried (net : Network ι) (a : NetInput ι) (s : U32) (m : RrepHeader)
    (hevent : a.input.event = .control s (.rrep m)) (h : Carried net a) :
    ∃ beyond, net.InFlight (.rrep m beyond) := by
  unfold Carried at h
  rw [hevent] at h
  rcases h with ⟨i, packet, -, hcarries, hsent⟩
  cases packet with
  | rrep m' beyond =>
      rw [show m' = m from hcarries] at hsent
      exact ⟨beyond, i, hsent.imp id fun h => ⟨_, h⟩⟩
  | rreq | rerr | null | timing => exact absurd hcarries id

/-- A hello the node it is about has broadcast, or an answer to a request a search has
    sent. -/
def Network.Accounts [DecidableEq ι] (net₀ : Network ι) (inputs : List (NetInput ι))
    (m : RrepHeader) : Prop :=
  (m.srcIp = 0 ∧ ∃ j, (net₀ j).ipAddress = m.destIp ∧
      .sendBroadcast (.rrep m []) ∈ (run netStep net₀ inputs j).log) ∨
    ∃ i, ∃ request ∈ net₀.originated inputs i, m.Answers request

variable [DecidableEq ι]

theorem log_netStep (net : Network ι) (a : NetInput ι) (j : ι) :
    (net j).log <:+ (netStep net a j).log := by
  by_cases hnode : j = a.node
  · rw [hnode, netStep_self, log_step]
    exact List.suffix_append _ _
  · rw [netStep_ne net a j hnode]

theorem accounts_append (net₀ : Network ι) (inputs : List (NetInput ι)) (a : NetInput ι)
    (m : RrepHeader) (h : net₀.Accounts inputs m) : net₀.Accounts (inputs ++ [a]) m := by
  rcases h with ⟨hsrc, j, hj, hsent⟩ | ⟨i, request, hrequest, hanswers⟩
  · rw [Network.Accounts, run_append, run_cons, run_nil]
    exact Or.inl ⟨hsrc, j, hj, (log_netStep _ a j).subset hsent⟩
  · refine Or.inr ⟨i, request, ?_, hanswers⟩
    rw [originated_append]
    exact List.mem_append_left _ hrequest

/-- What a request is answered with does not depend on how far it has come. -/
theorem answers_of_identity (m : RrepHeader) (r r' : RreqHeader) (h : r.identity = r'.identity)
    (hanswers : m.Answers r) : m.Answers r' := by
  have hdest := congrArg RreqHeader.destIp h
  have hsrc := congrArg RreqHeader.srcIp h
  have hseq := congrArg RreqHeader.srcSeq h
  simp only [RreqHeader.identity] at hdest hsrc hseq
  unfold RrepHeader.Answers at hanswers ⊢
  rw [← hdest, ← hsrc, ← hseq]
  exact hanswers

/-- In every run from start-up in which the messages that arrive have been sent, a reply
    in the air is a hello that the node it is about has broadcast, or there is a request of
    a search that it answers. -/
theorem replies_answer_requests (net₀ : Network ι)
    (hboot : ∀ i, ∃ ip bcast hello, net₀ i = Node.boot ip bcast hello)
    (inputs : List (NetInput ι)) (hcarried : AllSteps netStep Carried net₀ inputs)
    (m : RrepHeader) (beyond : List Byte)
    (h : (run netStep net₀ inputs).InFlight (.rrep m beyond)) :
    (m.srcIp = 0 ∧ ∃ j, (net₀ j).ipAddress = m.destIp ∧
        .sendBroadcast (.rrep m []) ∈ (run netStep net₀ inputs j).log) ∨
      ∃ i, ∃ request ∈ net₀.originated inputs i, m.Answers request := by
  show net₀.Accounts inputs m
  induction inputs using List.reverseRecOn generalizing m beyond with
  | nil =>
      rcases h with ⟨i, hi⟩
      rcases hboot i with ⟨ip, bcast, hello, hnode⟩
      rw [run_nil, hnode] at hi
      rcases hi with hi | ⟨dest, hi⟩
      · exact absurd hi List.not_mem_nil
      · exact absurd hi List.not_mem_nil
  | append_singleton inputs a ih =>
      rcases (allSteps_append netStep Carried net₀ inputs [a]).mp hcarried
        with ⟨hbefore, hnow, -⟩
      have hlater := fun m beyond hold =>
        accounts_append net₀ inputs a m (ih hbefore m beyond hold)
      -- What has just been sent has been made from a request, a reply or nothing.
      have hnew : ∀ c ∈ stepCalls (run netStep net₀ inputs a.node) a.input,
          m.MadeFrom a.input.event (run netStep net₀ inputs a.node).ipAddress c →
            net₀.Accounts (inputs ++ [a]) m := by
        intro c hc hmade
        cases hmade with
        | hello hsrc hdest hcall =>
            rw [run_ipAddress] at hdest
            refine Or.inl ⟨hsrc, a.node, hdest.symm, ?_⟩
            rw [run_append, run_cons, run_nil, netStep_self, log_step, ← hcall]
            exact List.mem_append_left _ hc
        | answer s request hevent hanswers =>
            have hrequests := AllSteps.imp netStep requestsCarried_of_carried net₀ inputs hbefore
            have hflight : (run netStep net₀ inputs).InFlight (.rreq request) := by
              have hcarried := requestsCarried_of_carried _ a hnow
              unfold RequestsCarried at hcarried
              rw [hevent] at hcarried
              exact hcarried
            rcases flooded_of_inFlight net₀ (floodStart_of_boot net₀ hboot) inputs hrequests
              request hflight with ⟨T, k, hflooded⟩
            rcases flooded_origin net₀ inputs request T k hflooded with ⟨i, r, hr, hsame⟩
            exact accounts_append net₀ inputs a m
              (Or.inr ⟨i, r, hr, answers_of_identity m request r hsame hanswers⟩)
        | passedOn s m₀ hevent hasked hsame =>
            -- A hello would not have been passed on, so there is a request.
            rcases inFlight_of_carried _ a s m₀ hevent hnow with ⟨beyond₀, hflight⟩
            rcases hlater m₀ beyond₀ hflight with ⟨hzero, -⟩ | hrequest
            · exact absurd hzero hasked
            · rw [hsame]
              exact Or.inr hrequest
      rcases h with ⟨i, hi⟩
      rw [run_append, run_cons, run_nil] at hi
      by_cases hnode : i = a.node
      · rw [hnode, netStep_self] at hi
        unfold Node.HasSent at hi
        rw [log_step] at hi
        have hreplies := step_replies (run netStep net₀ inputs a.node) a.input
        rcases hi with hi | ⟨dest, hi⟩
        · rcases List.mem_append.mp hi with hsent | hold
          · exact hnew _ hsent (hreplies _ hsent m beyond rfl)
          · exact hlater m beyond ⟨a.node, Or.inl hold⟩
        · rcases List.mem_append.mp hi with hsent | hold
          · exact hnew _ hsent (hreplies _ hsent m beyond rfl)
          · exact hlater m beyond ⟨a.node, Or.inr ⟨dest, hold⟩⟩
      · rw [netStep_ne _ a i hnode] at hi
        exact hlater m beyond ⟨i, hi⟩

end Network

/-- The reply the second of three nodes has passed on to the first. -/
theorem replies_answer_requests_row :
    ∃ m : RrepHeader, (run netStep (Network.boot 3) rowAnswered).InFlight (.rrep m []) ∧
      m.hopCount = 1 ∧
      ∃ i, ∃ request ∈ (Network.boot 3).originated rowAnswered i, m.Answers request := by
  let m : RrepHeader :=
    { generateRrepMessage (fun _ => 0) 0 0x03000000 1 0x01000000 (toU32 myRouteTimeout) with
      hopCount := 1 }
  have hsent : (run netStep (Network.boot 3) rowAnswered).InFlight (.rrep m []) :=
    ⟨1, Or.inr ⟨0x01000000, by decide +kernel⟩⟩
  have hcarried : AllSteps netStep Carried (Network.boot 3) rowAnswered :=
    AllSteps.imp netStep (fun net a h => carried_of_overLinks rowLinks net a h) _ _
      overLinks_rowAnswered
  rcases replies_answer_requests (Network.boot 3) (fun _ => ⟨_, _, _, rfl⟩) rowAnswered hcarried
    m [] hsent with ⟨hzero, -⟩ | hasked
  · exact absurd hzero (by decide)
  · exact ⟨m, hsent, rfl, hasked⟩

end OpenManet
