import OpenManet.Theory.Discovery
import OpenManet.Theory.Flooding
import OpenManet.Theory.RingSearch

/-!
# Where a Request Comes From

A node that passes a request on changes how far it has come, how far it may still go,
and which number of the destination it asks for. The rest of it, its originator, the id,
the originator's number, the destination and the flags, is what tells it from others.

So every request in the air is a copy of one that a search of the node it names as its
originator has sent. And since a node numbers its requests, two requests of the same
originator with the same id are copies of one request, whatever has happened to them on
the way: to remember the ids is enough. This ends when a node has given out all ids.

## Main definitions

* `RreqHeader.identity`: What passing a request on leaves of it.
* `Network.Originates`: A node has sent the request on behalf of a search.

## Theorems

* `step_identity`: A node that passes a request on leaves the identity alone.
* `originated_srcIp`: What a node originates bears its address.
* `requests_identified`: The originator and the id tell all requests apart.
-/

namespace OpenManet

/-- The request without what passing it on changes. -/
def RreqHeader.identity (m : RreqHeader) : RreqHeader :=
  { m with hopCount := 0, ttl := 0, destSeq := 0 }

theorem identity_passedOn (m : RreqHeader) (destination : Option RoutingEntry) :
    (forwardedRreq (incrementHopRreq m) destination).identity = m.identity := by
  unfold forwardedRreq
  cases destination with
  | none => rfl
  | some e =>
      simp only []
      split <;> rfl

/-! ### One step -/

/-- The call broadcasts a copy of this request if it broadcasts one. -/
def ApiCall.Copies (m : RreqHeader) : ApiCall → Prop
  | sendBroadcast (.rreq m') => m'.identity = m.identity
  | _ => True

/-- What is broadcast upon a request is a copy of it. -/
theorem step_identity (n : Node) (env : Env) (s : U32) (m : RreqHeader) :
    ∀ c ∈ stepCalls n { env := env, event := .control s (.rreq m) }, c.Copies m := by
  refine stepCalls_of_ops _ n _ (Prog.Meets.imp (fun o n hguard => ?_) _ n
    (handler_guard n { env := env, event := .control s (.rreq m) }))
  intro c hc
  cases o with
  | sendRreq => exact absurd hguard.1 nofun
  | sendBroadcast packet =>
      rcases List.mem_singleton.mp hc with rfl
      cases hguard with
      | request s' m' hevent httl =>
          cases hevent
          exact identity_passedOn m _
      | hello | error | noError => trivial
  | sendUnicast dest packet =>
      rcases List.mem_singleton.mp hc with rfl
      trivial
  | _ =>
      -- The rest only change the kernel's routes.
      have hroute := calls_isRouteCall n _ id c hc
      cases c with
      | addUnicastRoutingEntry | deleteEntry => trivial
      | sendUnicast | sendBroadcast => cases hroute

/-! ### The searches of a node -/

theorem mem_requestsBy (n : Node) (inputs : List Input) (m : RreqHeader)
    (h : m ∈ requestsBy (fun _ => true) n inputs) :
    ∃ id, m ∈ requestsBy (fun i => i = id) n inputs := by
  induction inputs generalizing n with
  | nil => exact absurd h List.not_mem_nil
  | cons input rest ih =>
      rcases List.mem_append.mp h with hnow | hlater
      · rcases input with ⟨env, event⟩
        cases event with
        | search id =>
            refine ⟨id, List.mem_append_left _ ?_⟩
            unfold roundRequests at hnow ⊢
            simp only [decide_true, if_true] at hnow ⊢
            exact hnow
        | _ => exact absurd hnow List.not_mem_nil
      · rcases ih _ hlater with ⟨id, hid⟩
        exact ⟨id, List.mem_append_right _ hid⟩

/-- What a node originates it originates under its address. -/
theorem originated_srcIp (ip bcast : U32) (hello : Nat → Byte) (inputs : List Input)
    (m : RreqHeader) (h : m ∈ requestsBy (fun _ => true) (Node.boot ip bcast hello) inputs) :
    m.srcIp = ip := by
  rcases mem_requestsBy _ inputs m h with ⟨id, hid⟩
  rcases run_keepsSchedule ip bcast hello id inputs with hnone | ⟨e, seq, hfor, -⟩
  · rw [hnone] at hid
    exact absurd hid List.not_mem_nil
  · rw [hfor m hid]
    rfl

/-- Two requests of a node with the same id are one, as long as the ids do not come
    round again. -/
theorem originated_unique (n : Node) (inputs : List Input)
    (hfew : (requestsBy (fun _ => true) n inputs).length < 2 ^ 32) (m m' : RreqHeader)
    (hm : m ∈ requestsBy (fun _ => true) n inputs) (hm' : m' ∈ requestsBy (fun _ => true) n inputs)
    (hid : m.rreqId = m'.rreqId) : m = m' := by
  have hnodup : ((requestsBy (fun _ => true) n inputs).map RreqHeader.rreqId).Nodup := by
    rw [(requestsBy_rreqId n inputs).1]
    refine List.Nodup.map_on (fun i hi j hj heq => ?_) List.nodup_range
    have hi' := List.mem_range.mp hi
    have hj' := List.mem_range.mp hj
    have hsum := congrArg BitVec.toNat (add_left_cancel heq)
    rw [BitVec.toNat_ofNat, BitVec.toNat_ofNat] at hsum
    omega
  exact List.inj_on_of_nodup_map hnodup hm hm' hid

/-! ### The network -/

section Network

variable {ι : Type} [DecidableEq ι]

/-- The requests the searches of a node have sent in the run. -/
def Network.originated (net₀ : Network ι) (inputs : List (NetInput ι)) (i : ι) :
    List RreqHeader :=
  requestsBy (fun _ => true) (net₀ i) (inputsOf i inputs)

theorem originated_append (net₀ : Network ι) (inputs : List (NetInput ι)) (a : NetInput ι) (i : ι) :
    net₀.originated (inputs ++ [a]) i = net₀.originated inputs i ++
      if a.node = i then roundRequests (fun _ => true) (run netStep net₀ inputs i) a.input
      else [] := by
  unfold Network.originated
  rw [inputsOf_append, inputsOf_singleton]
  by_cases hnode : a.node = i
  · rw [if_pos hnode, if_pos hnode, requestsBy_append, ← run_netStep_apply]
  · rw [if_neg hnode, if_neg hnode, List.append_nil, List.append_nil]

/-- A request followed on its way is a copy of the one that set out. -/
theorem flooded_origin (net₀ : Network ι) (inputs : List (NetInput ι)) (m : RreqHeader)
    (T k : Nat) (h : Flooded net₀ inputs m T k) :
    ∃ i, ∃ m₀ ∈ net₀.originated inputs i, m.identity = m₀.identity := by
  -- What has been originated remains so.
  have hlater : ∀ inputs (a : NetInput ι) (m : RreqHeader),
      (∃ i, ∃ m₀ ∈ net₀.originated inputs i, m.identity = m₀.identity) →
      ∃ i, ∃ m₀ ∈ net₀.originated (inputs ++ [a]) i, m.identity = m₀.identity := by
    rintro inputs a m ⟨i, m₀, hm₀, hsame⟩
    refine ⟨i, m₀, ?_, hsame⟩
    rw [originated_append]
    exact List.mem_append_left _ hm₀
  induction h with
  | originated inputs a id m hevent hsent =>
      refine ⟨a.node, m, ?_, rfl⟩
      rcases a with ⟨node, env, event⟩
      cases hevent
      rw [originated_append, if_pos rfl]
      exact List.mem_append_right _ (List.mem_filterMap.mpr ⟨_, hsent, rfl⟩)
  | rebroadcast inputs a s m m' T k h hevent hsent ih =>
      rcases hlater inputs a m ih with ⟨i, m₀, hm₀, hsame⟩
      rcases a with ⟨node, env, event⟩
      cases hevent
      have hcopy : m'.identity = m.identity := step_identity _ env s m _ hsent
      exact ⟨i, m₀, hm₀, hcopy.trans hsame⟩
  | later inputs a m T k h ih => exact hlater inputs a m ih

omit [DecidableEq ι] in
/-- Nodes at start-up have nothing stored or sent. -/
theorem floodStart_of_boot (net : Network ι)
    (hboot : ∀ i, ∃ ip bcast hello, net i = Node.boot ip bcast hello) : FloodStart net := by
  refine ⟨fun i k e he => ?_, fun i t ht => ?_, ?_⟩
  · rcases hboot i with ⟨ip, bcast, hello, hnode⟩
    rw [hnode] at he
    exact absurd he (Node.boot_slots_ne ip bcast hello k e)
  · rcases hboot i with ⟨ip, bcast, hello, hnode⟩
    rw [hnode] at ht
    exact absurd ht List.not_mem_nil
  · rintro m ⟨i, hi⟩
    rcases hboot i with ⟨ip, bcast, hello, hnode⟩
    rw [hnode] at hi
    rcases hi with hi | ⟨dest, hi⟩
    · exact absurd hi List.not_mem_nil
    · exact absurd hi List.not_mem_nil

/-- In every run from start-up in which the requests that arrive have been broadcast, a
    request in the air is a copy of one that a search of the node it names has sent; and
    as long as no node has used up its ids, requests of the same originator with the same
    id are copies of the same request. -/
theorem requests_identified (net₀ : Network ι)
    (hboot : ∀ i, ∃ ip bcast hello, net₀ i = Node.boot ip bcast hello)
    (hdistinct : Function.Injective fun i => (net₀ i).ipAddress) (inputs : List (NetInput ι))
    (hlegal : AllSteps netStep RequestsCarried net₀ inputs) :
    (∀ m, (run netStep net₀ inputs).InFlight (.rreq m) → ∃ i, (net₀ i).ipAddress = m.srcIp ∧
      ∃ m₀ ∈ net₀.originated inputs i, m.identity = m₀.identity) ∧
    ((∀ i, (net₀.originated inputs i).length < 2 ^ 32) → ∀ m m',
      (run netStep net₀ inputs).InFlight (.rreq m) →
      (run netStep net₀ inputs).InFlight (.rreq m') →
      m.srcIp = m'.srcIp → m.rreqId = m'.rreqId → m.identity = m'.identity) := by
  have hstart := floodStart_of_boot net₀ hboot
  have horigin : ∀ m, (run netStep net₀ inputs).InFlight (.rreq m) →
      ∃ i, (net₀ i).ipAddress = m.srcIp ∧
        ∃ m₀ ∈ net₀.originated inputs i, m.identity = m₀.identity := by
    intro m hm
    rcases flooded_of_inFlight net₀ hstart inputs hlegal m hm with ⟨T, k, hflooded⟩
    rcases flooded_origin net₀ inputs m T k hflooded with ⟨i, m₀, hm₀, hsame⟩
    refine ⟨i, ?_, m₀, hm₀, hsame⟩
    rcases hboot i with ⟨ip, bcast, hello, hnode⟩
    unfold Network.originated at hm₀
    rw [hnode] at hm₀ ⊢
    have hsrc := originated_srcIp ip bcast hello _ m₀ hm₀
    exact hsrc.symm.trans (congrArg RreqHeader.srcIp hsame).symm
  refine ⟨horigin, fun hfew m m' hm hm' hsrc hid => ?_⟩
  rcases horigin m hm with ⟨i, hi, m₀, hm₀, hsame⟩
  rcases horigin m' hm' with ⟨i', hi', m₀', hm₀', hsame'⟩
  have hnode : i = i' := hdistinct (hi.trans (hsrc.trans hi'.symm))
  subst hnode
  have hids : m₀.rreqId = m₀'.rreqId := by
    have hsameId := congrArg RreqHeader.rreqId hsame
    have hsameId' := congrArg RreqHeader.rreqId hsame'
    exact (hsameId.symm.trans hid).trans hsameId'
  rw [hsame, hsame', originated_unique _ _ (hfew i) m₀ m₀' hm₀ hm₀' hids]

end Network

/-- The request of the second ring. -/
def secondRequest : RreqHeader := { firstRequest with rreqId := 2, ttl := 3 }

/-- The copy the second node passes on. -/
def secondRequestOn : RreqHeader := { secondRequest with hopCount := 1, ttl := 2 }

/-- The first of three nodes asks for the third in two rings, and the second hears both
    and passes the second on. -/
def twoRings : List (NetInput (Fin 3)) :=
  [⟨Row.first, { env := .clear, event := .outgoing 0x03000000 }⟩,
    ⟨Row.first, { env := .clear, event := .search 1 }⟩,
    ⟨Row.middle, receive 0x01000000 (.rreq firstRequest)⟩,
    ⟨Row.first, { env := .clear, event := .search 1 }⟩,
    ⟨Row.middle, receive 0x01000000 (.rreq secondRequest)⟩]

/-- The copy that is passed on comes from a node and is one of the second request. -/
theorem requests_identified_twoRings :
    (∃ i, (Network.boot 3 i).ipAddress = secondRequestOn.srcIp ∧
      ∃ m₀ ∈ (Network.boot 3).originated twoRings i,
        secondRequestOn.identity = m₀.identity) ∧
    secondRequestOn.identity = secondRequest.identity := by
  rcases requests_identified (Network.boot 3) (fun i => ⟨_, _, _, rfl⟩) (by decide) twoRings
    ⟨trivial, trivial, ⟨0, Or.inl (by decide)⟩, trivial, ⟨0, Or.inl (by decide)⟩, trivial⟩
    with ⟨horigin, hsame⟩
  have hpassedOn : (run netStep (Network.boot 3) twoRings).InFlight (.rreq secondRequestOn) :=
    ⟨1, Or.inl (by decide)⟩
  have hsent : (run netStep (Network.boot 3) twoRings).InFlight (.rreq secondRequest) :=
    ⟨0, Or.inl (by decide)⟩
  exact ⟨horigin _ hpassedOn, hsame (by decide) _ _ hpassedOn hsent rfl rfl⟩

end OpenManet
