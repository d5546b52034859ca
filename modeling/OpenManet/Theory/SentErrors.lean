import OpenManet.Theory.LoopFreedom

/-!
# The Errors a Node Sends

A RERR is sent for two reasons only: a packet could not be passed on, or a RERR has come
in. The packets of the two are put together in three places, and every other handler sends
none. So what is to hold of all RERRs a node sends is asked of these three.

## Main definitions

* `Op.ErrorMeets`: If the operation sends a RERR, it meets a condition.
* `ErrorsPassedOn`, `ErrorsOwn`: The condition on what is put together upon a RERR, and
  upon a forwarded packet.

## Theorems

* `rerrPacket_words`, `breakPacket_words`: What the two loops send.
* `handler_errorMeets`, `stepCalls_errorMeets`: Nothing else sends a RERR.
-/

namespace OpenManet

/-- If the operation sends a RERR, it meets the condition. -/
def Op.ErrorMeets (P : RerrHeader → List U32 → Prop) : Op → Prop
  | sendUnicast _ (.rerr header words) | sendBroadcast (.rerr header words) => P header words
  | _ => True

/-- Every RERR the handler sends meets the condition. -/
abbrev Handler.ErrorMeets (P : RerrHeader → List U32 → Prop) (h : Handler) (n : Node) : Prop :=
  h.Meets Op.apply (fun o _ => o.ErrorMeets P) n

/-- The RERRs put together upon one that has come in meet the condition. -/
def ErrorsPassedOn (P : RerrHeader → List U32 → Prop) : Prop :=
  ∀ (l : RerrLocals) header words, l.packet = .rerr header words → P header words

/-- The RERRs put together upon a forwarded packet meet the condition. -/
def ErrorsOwn (P : RerrHeader → List U32 → Prop) : Prop :=
  (∀ dest destSeq, P (rerrHeader 0 1) [dest, destSeq]) ∧
    ∀ env (l : BreakLocals) header words, l.packet env = .rerr header words → P header words

/-! ### What is put together -/

theorem rerrPacket_words (l : RerrLocals) (header : RerrHeader) (words : List U32)
    (h : l.packet = .rerr header words) : header = rerrHeader 0 (l.numDests / 2) ∧
      words = (List.range (2 * (l.numDests / 2).toNat)).map l.pairs := by
  unfold RerrLocals.packet generateRerrMessageBuff at h
  split at h
  · cases h
  · rename_i hgenerated
    split at hgenerated
    · cases hgenerated
    · cases hgenerated
      cases h
      exact ⟨rfl, rfl⟩

/-- As many words are sent as the count says before it is narrowed. -/
theorem breakPacket_words (env : Env) (l : BreakLocals) (header : RerrHeader) (words : List U32)
    (h : l.packet env = .rerr header words) : header = rerrHeader 0 (l.numDests.setWidth 8) ∧
      words.length = 2 * l.numDests.toNat := by
  unfold BreakLocals.packet generateRerrMessageBuff at h
  split at h
  · cases h
  · rename_i hgenerated
    split at hgenerated
    · cases hgenerated
    · cases hgenerated
      cases h
      refine ⟨rfl, ?_⟩
      rw [sentWords, List.length_map, List.length_range]

/-! ### The handlers -/

section Handlers

variable {P : RerrHeader → List U32 → Prop} (env : Env)

theorem send_errorMeets (target : RerrTarget) (packet : Packet)
    (h : ∀ header words, packet = .rerr header words → P header words) :
    (target.send packet).ErrorMeets P := by
  unfold RerrTarget.send
  cases packet with
  | rerr header words =>
      have hmeets := h header words rfl
      split
      · exact hmeets
      · exact hmeets
  | rreq | rrep | null | timing => split <;> trivial

theorem rerrLoop_errorMeets (hpassed : ErrorsPassedOn P) (s : U32) (pairs : List (U32 × U32))
    (l : RerrLocals) (n : Node) : (rerrLoop env s pairs l).ErrorMeets P n := by
  induction pairs generalizing l n with
  | nil =>
      unfold rerrLoop
      split
      · trivial
      · exact ⟨send_errorMeets _ _ (hpassed l), trivial⟩
  | cons pair rest ih =>
      simp only [rerrLoop, Handler.ErrorMeets, Prog.Meets]
      split
      · exact ih l n
      · split
        · exact ⟨trivial, ih _ _⟩
        · exact ih l n

section Own

variable (hown : ErrorsOwn P)

include hown

theorem breakLoop_errorMeets (dest : U32) (list : List U32) (l : BreakLocals) (n : Node) :
    (breakLoop env dest list l).ErrorMeets P n := by
  induction list generalizing l n with
  | nil => exact ⟨send_errorMeets _ _ (hown.2 env l), trivial⟩
  | cons ip rest ih =>
      simp only [breakLoop, Handler.ErrorMeets, Prog.Meets]
      split
      · exact ⟨trivial, ih _ _⟩
      · exact ih l n

theorem forwardedError_errorMeets (dest destSeq : U32) (n : Node) :
    (forwardedError dest destSeq).ErrorMeets P n := ⟨hown.1 dest destSeq, trivial⟩

theorem forwardedOver_errorMeets (src dest hopIp : U32) (srcEntry other : Bool) (n : Node) :
    (forwardedOver env src dest hopIp srcEntry other).ErrorMeets P n := by
  have hpass : ∀ n, (forwardedPass env src dest srcEntry).ErrorMeets P n := by
    intro n
    cases srcEntry with
    | false => exact ⟨trivial, trivial⟩
    | true => exact ⟨trivial, trivial, trivial⟩
  simp only [forwardedOver, Handler.ErrorMeets, Prog.Meets]
  split
  · split
    · exact hpass n
    · exact hpass n
  · split
    · simp only [forwardedBreak, Prog.Meets]
      split
      · trivial
      · exact ⟨trivial, breakLoop_errorMeets env hown dest _ _ _⟩
    · exact forwardedError_errorMeets hown dest _ n

theorem forwardedMessages_errorMeets (src dest : U32) (n : Node) :
    (forwardedMessages env src dest).ErrorMeets P n := by
  simp only [forwardedMessages, Handler.ErrorMeets, Prog.Meets]
  split
  · simp only [Prog.Meets]
    split
    · exact forwardedError_errorMeets hown dest _ n
    · split
      · exact forwardedError_errorMeets hown dest _ n
      · split
        · exact forwardedOver_errorMeets env hown src dest _ _ _ n
        · exact forwardedOver_errorMeets env hown src dest _ _ _ n
  · exact forwardedError_errorMeets hown dest _ n

end Own

theorem sendRrepIntermediate_errorMeets (m : RreqHeader) (s : U32) (n : Node) :
    (sendRrepIntermediate env m s acceptPacket).ErrorMeets P n := by
  refine ⟨trivial, ?_⟩
  simp only [Prog.Meets]
  split
  · trivial
  · refine ⟨trivial, trivial, ?_⟩
    split
    · exact ⟨trivial, trivial⟩
    · trivial

theorem afterReverseRoute_errorMeets (s : U32) (m : RreqHeader) (n n' : Node) :
    (afterReverseRoute env s m n).ErrorMeets P n' := by
  unfold afterReverseRoute
  split
  · exact ⟨trivial, trivial, trivial, trivial⟩
  · simp only [answerOrForward, Handler.ErrorMeets, Prog.Meets]
    split
    · exact sendRrepIntermediate_errorMeets env m s n'
    · split
      · trivial
      · exact ⟨trivial, trivial⟩

theorem recvRreq_errorMeets (s : U32) (m : RreqHeader) (n : Node) :
    (recvRreq env s m).ErrorMeets P n := by
  refine ⟨trivial, trivial, ?_⟩
  simp only [Prog.Meets]
  split
  · trivial
  · split
    · trivial
    · exact ⟨trivial, trivial, afterReverseRoute_errorMeets env s _ _ _⟩

theorem recvRrep_errorMeets (s : U32) (m : RrepHeader) (n : Node) :
    (recvRrep env s m).ErrorMeets P n := by
  have hforward : ∀ n, (forwardRrep (incrementHopRrep m)
      (.unlock (slotOf (incrementHopRrep m).destIp) acceptPacket)).ErrorMeets P n := by
    intro n
    simp only [forwardRrep, Handler.ErrorMeets, Prog.Meets]
    split
    · exact ⟨trivial, trivial, trivial, trivial, trivial⟩
    · trivial
  have hrest : ∀ n, Handler.ErrorMeets P (if m.srcIp = 0 then recvHello env s (incrementHopRrep m)
      else previousHopSection env s m.destIp
        (installForwardRoute env s (incrementHopRrep m))) n := by
    intro n
    split
    · exact ⟨trivial, trivial, trivial⟩
    · refine ⟨trivial, trivial, trivial, trivial, trivial, ?_⟩
      simp only []
      split
      · exact hforward _
      · trivial
  simp only [recvRrep, publishFound, Handler.ErrorMeets, Prog.Meets]
  split
  · exact ⟨trivial, hrest _⟩
  · exact hrest n

theorem startOrJoin_errorMeets (dest : U32) (new : Bool) (n n' : Node) :
    (startOrJoin dest new n).ErrorMeets P n' := by
  unfold startOrJoin
  split
  · trivial
  · split
    · trivial
    · simp only []
      split
      · exact ⟨trivial, trivial⟩
      · cases new with
        | true => exact ⟨trivial, trivial, trivial⟩
        | false => exact ⟨trivial, trivial, trivial, trivial⟩

theorem outgoingMessage_errorMeets (dest : U32) (n : Node) :
    (outgoingMessage env dest).ErrorMeets P n := by
  have hsearch : ∀ n, (sendRreq env dest).ErrorMeets P n :=
    fun n => ⟨trivial, startOrJoin_errorMeets dest _ _ _⟩
  simp only [outgoingMessage, Handler.ErrorMeets, Prog.Meets]
  split
  · trivial
  · split
    · exact hsearch n
    · split
      · exact ⟨trivial, trivial⟩
      · split
        · trivial
        · split
          · exact ⟨trivial, hsearch _⟩
          · exact hsearch n

theorem retryStep_errorMeets (t : SearchThread) (rreq : RreqHeader) (i : Nat) (n : Node) :
    (retryStep env t rreq i).ErrorMeets P n := by
  unfold retryStep
  split <;> exact ⟨trivial, trivial⟩

theorem ringStep_errorMeets (t : SearchThread) (rreq : RreqHeader) (ttl : U32) (n : Node) :
    (ringStep env t rreq ttl).ErrorMeets P n := by
  unfold ringStep
  split
  · exact ⟨trivial, trivial⟩
  · exact retryStep_errorMeets env t rreq 0 n

theorem searchThreadStep_errorMeets (id : Nat) (n : Node) :
    (searchThreadStep env id).ErrorMeets P n := by
  simp only [searchThreadStep, Handler.ErrorMeets, Prog.Meets]
  split
  · trivial
  · split
    · refine ⟨trivial, ?_⟩
      simp only [Prog.Meets]
      split
      · trivial
      · exact ringStep_errorMeets env _ _ _ _
    · exact ringStep_errorMeets env _ _ _ n
    · exact retryStep_errorMeets env _ _ _ n

theorem waiterStep_errorMeets (k : Nat) (n : Node) : (waiterStep env k).ErrorMeets P n := by
  simp only [waiterStep, Handler.ErrorMeets, Prog.Meets]
  split
  · trivial
  · split
    · split
      · trivial
      · exact ⟨trivial, trivial⟩
    · exact ⟨trivial, trivial, trivial⟩
    · split
      · exact ⟨trivial, trivial, trivial⟩
      · exact ⟨trivial, trivial, trivial⟩
    · trivial

theorem expirationFunc_errorMeets (ip : U32) (n : Node) :
    (expirationFunc env ip).ErrorMeets P n := by
  simp only [expirationFunc, Handler.ErrorMeets, Prog.Meets]
  split
  · simp only [Prog.Meets]
    split
    · exact ⟨trivial, trivial⟩
    · exact ⟨trivial, trivial⟩
  · trivial

/-- A RERR is sent upon a forwarded packet and upon a RERR only. -/
theorem handler_errorMeets (n : Node) (input : Input)
    (hpassed : ∀ s header destPairs, input.event = .control s (.rerr header destPairs) →
      ErrorsPassedOn P)
    (hown : ∀ src dest, input.event = .forwarded src dest → ErrorsOwn P) :
    input.handler.ErrorMeets P n := by
  rcases input with ⟨env, event⟩
  cases event with
  | control s message =>
      refine incomingControlMessage_meets n env s _ message (fun _ => ?_)
      cases message with
      | rreq m => exact recvRreq_errorMeets env s m n
      | rrep m => exact recvRrep_errorMeets env s m n
      | rerr m destPairs => exact rerrLoop_errorMeets env (hpassed s m destPairs rfl) s _ _ n
  | data src dest => exact incomingDataMessage_meets n env _ src dest fun _ => trivial
  | outgoing dest => exact outgoingMessage_errorMeets env dest n
  | forwarded src dest =>
      exact forwardedMessages_errorMeets env (hown src dest rfl) src dest n
  | search id => exact searchThreadStep_errorMeets env id n
  | wait k => exact waiterStep_errorMeets env k n
  | expire ip => exact expirationFunc_errorMeets env ip n
  | rreqIdExpire ip => exact rreqIdFunc_meets n _ ip trivial
  | hello => exact helloInterval_meets n _ (fun _ => trivial) (fun _ => trivial) fun _ => trivial

/-- So what is asked of these places holds of the RERRs of a step. -/
theorem stepCalls_errorMeets (n : Node) (input : Input)
    (hpassed : ∀ s header destPairs, input.event = .control s (.rerr header destPairs) →
      ErrorsPassedOn P)
    (hown : ∀ src dest, input.event = .forwarded src dest → ErrorsOwn P) :
    ∀ c ∈ stepCalls n input, ∀ header words, c.packet = some (.rerr header words) →
      P header words := by
  refine stepCalls_of_ops _ n input (Prog.Meets.imp (fun o n hmeets => ?_) _ n
    (handler_errorMeets n input hpassed hown))
  intro c hc header words hpacket
  cases o with
  | sendRreq id rreq ttl stage =>
      rcases List.mem_singleton.mp hc with rfl
      cases hpacket
  | sendUnicast dest packet =>
      rcases List.mem_singleton.mp hc with rfl
      cases hpacket
      exact hmeets
  | sendBroadcast packet =>
      rcases List.mem_singleton.mp hc with rfl
      cases hpacket
      exact hmeets
  | _ =>
      rw [packet_of_isRouteCall c (calls_isRouteCall n _ id c hc)] at hpacket
      cases hpacket

end Handlers

end OpenManet
