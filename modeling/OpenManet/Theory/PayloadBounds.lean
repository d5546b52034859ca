import OpenManet.Theory.Disclosure

/-!
# The Ends of Payloads

`incoming_control_message` is given the length of a payload and uses it nowhere. It
reads the type byte, casts the pointer to a header and goes by the counts it finds.

`payloadAccesses` lists the bytes of a payload a call reads or writes. The bit fields
of a header share its first word, so everything is accessed in words, but for the
type byte; each word is listed where a handler first comes to it. A reply and a
request are read up to the last field the handler gets to. A request dropped as the
node's own or as a duplicate is left before its last word. A RERR is read pair by
pair, and the second word of a pair only when it breaks a route.

A payload of 24, 20 or 4 + 8 n bytes is enough for a request, a reply and a RERR with
n destinations, a request that is dropped needs 20, and with less there is an access
behind the end.

## Main definitions

* `recvRreqWords`, `recvRrepWords`, `recvRerrWords`: The words a handler accesses.
* `payloadAccesses`: The bytes a call accesses.
* `WithinPayload`: There is no access behind the end.
* `LongEnough`: The lengths that are enough.

## Theorems

* `withinPayload_iff_longEnough`: No access behind the end, exactly for these lengths.
* `receivedStep_behind`: Without one, what lies behind the end makes no difference.
* `not_withinPayload_shortError`: A RERR that ends after its header.
-/

namespace OpenManet

/-! ### The words of a request -/

/-- `send_rrep_destination` looks at the number in the request if it is known. -/
def sendRrepDestinationWords (m : RreqHeader) : List Nat :=
  if m.flags &&& rreqUnknown = 0 then [3] else []

/-- The number in the request is compared with that of the destination's entry, if
    the entry's is valid and the request's known. -/
def knowsFresherWords (m : RreqHeader) (destination : Option RoutingEntry) : List Nat :=
  if destination.any (fun e => e.seqValid = .seqValid) ∧ m.flags &&& rreqUnknown = 0 then [3]
  else []

/-- The test for an answer from the table, and the broadcast of the whole header.
    `send_rrep_intermediate` comes to no new word. -/
def answerOrForwardWords (m : RreqHeader) (destination : Option RoutingEntry) : List Nat :=
  (if m.flags &&& rreqDestOnly = 0 ∧ destination.any (fun e => e.status = .routeValid) then
    knowsFresherWords m destination else []) ++
  if destination.any (answersFromTable m) then []
  else if m.ttl ≤ 1 then []
  else knowsFresherWords m destination ++ [0, 1, 2, 3, 4, 5]

/-- `recv_rreq` once it has incremented the hop count: the first word, the number of
    the originator, the request id, the destination. -/
def recvNewRreqWords (env : Env) (s : U32) (m : RreqHeader) (n : Node) : List Nat :=
  let n := afterReverse env s m n
  [0, 4, 5, 1, 2] ++
  if n.ipAddress = m.destIp then sendRrepDestinationWords m
  else answerOrForwardWords m (n.getRoutingEntry m.destIp)

/-- The duplicate check looks at the destination if the request id is the stored
    one, and at the hop count if the node is the destination. -/
def isDuplicateWords (ipAddress : U32) (m : RreqHeader) (originator : RoutingEntry) : List Nat :=
  if originator.rreqId = m.rreqId then
    if ipAddress ≠ m.destIp then [1, 2] else [1, 2, 0]
  else [1]

def recvRreqWords (env : Env) (s : U32) (m : RreqHeader) (n : Node) : List Nat :=
  let n := afterPreviousHop env s m.srcIp n
  [4] ++
  if m.srcIp = n.ipAddress then []
  else
    match n.getRoutingEntry m.srcIp with
    | none => recvNewRreqWords env s (incrementHopRreq m) n
    | some originator =>
      isDuplicateWords n.ipAddress m originator ++
      if isDuplicate n.ipAddress m originator then []
      else recvNewRreqWords env s (incrementHopRreq m) n

/-! ### The words of the other messages -/

/-- A hello and a reply alike: the destination, the originator, the hop count, and
    the number and lifetime as arguments of `create_or_get_routing_entry`. -/
def recvRrepWords : List Nat := [1, 3, 0, 2, 4]

/-- The loop over the pairs, the first of which begins at a word. -/
def rerrLoopWords (env : Env) (s : U32) : Nat → List (U32 × U32) → Node → List Nat
  | _, [], _ => []
  | word, pair :: rest, n =>
    word ::
    match n.getRoutingEntry pair.1 with
    | none => rerrLoopWords env s (word + 2) rest n
    | some e =>
      if e.goesThrough s then
        (word + 1) ::
          rerrLoopWords env s (word + 2) rest ((Op.breakRoute env pair.1 pair.2).apply n)
      else rerrLoopWords env s (word + 2) rest n

def recvRerrWords (env : Env) (s : U32) (header : RerrHeader) (destPairs : Nat → U32) (n : Node) :
    List Nat :=
  0 :: rerrLoopWords env s 1 (rerrPairs header.destCount destPairs) n

/-! ### The bytes of a payload -/

/-- The bytes of a list of words. -/
def bytesOfWords (words : List Nat) : List Nat :=
  words.flatMap fun i => [4 * i, 4 * i + 1, 4 * i + 2, 4 * i + 3]

/-- The bytes `incoming_control_message` and the handler it dispatches to access, in
    a payload with these bytes from its start on. -/
def payloadAccesses (env : Env) (src : U32) (bytes : Nat → Byte) (n : Node) : List Nat :=
  3 :: bytesOfWords (
    if src = n.ipAddress then []
    else if bytes 3 = rreqType then recvRreqWords env src (readRreq bytes) n
    else if bytes 3 = rrepType then recvRrepWords
    else if bytes 3 = rerrType then
      recvRerrWords env src (readRerr bytes) (fun i => wordAt bytes (i + 1)) n
    else [])

section Bounds

variable (env : Env) (src : U32) (payload : List Byte) (behind : Nat → Byte) (n : Node)

/-- Every access is to a byte of the payload, and pairs of a RERR are accessed only
    if all it announces are there. -/
structure WithinPayload : Prop where
  below : ∀ k ∈ payloadAccesses env src (payloadBytes payload behind) n, k < payload.length
  pairs : payloadBytes payload behind 3 = rerrType →
    (∃ k ∈ payloadAccesses env src (payloadBytes payload behind) n, 4 ≤ k) →
    4 + 8 * (payloadBytes payload behind 0).toNat ≤ payload.length

/-- The payload has its type byte, and if it is not the node's own it is as long as
    its type and count say, except that a request that is dropped may end before its
    last word. -/
structure LongEnough : Prop where
  type : 4 ≤ payload.length
  rreq : src ≠ n.ipAddress → payloadBytes payload behind 3 = rreqType → 20 ≤ payload.length ∧
    (24 ≤ payload.length ∨ dropped (readRreq (payloadBytes payload behind))
      (afterPreviousHop env src (readRreq (payloadBytes payload behind)).srcIp n))
  rrep : src ≠ n.ipAddress → payloadBytes payload behind 3 = rrepType → 20 ≤ payload.length
  rerr : src ≠ n.ipAddress → payloadBytes payload behind 3 = rerrType →
    4 + 8 * (payloadBytes payload behind 0).toNat ≤ payload.length

end Bounds

/-! ### The words that are accessed -/

theorem bytesOfWords_lt (words : List Nat) (length : Nat) :
    (∀ k ∈ bytesOfWords words, k < length) ↔ ∀ w ∈ words, 4 * w + 3 < length := by
  constructor
  · intro h w hw
    exact h _ (List.mem_flatMap.mpr ⟨w, hw, by simp only [List.mem_cons, true_or, or_true]⟩)
  · intro h k hk
    rcases List.mem_flatMap.mp hk with ⟨w, hw, hbyte⟩
    have hlast := h w hw
    simp only [List.mem_cons, List.not_mem_nil, or_false] at hbyte
    omega

section Words

variable (env : Env) (s : U32) (m : RreqHeader) (n : Node)

theorem knowsFresherWords_le (destination : Option RoutingEntry) :
    ∀ w ∈ knowsFresherWords m destination, w ≤ 5 := by
  unfold knowsFresherWords
  split
  · decide
  · decide

/-- A request that is not dropped is read to its last word and no further. -/
theorem recvNewRreqWords_le : 5 ∈ recvNewRreqWords env s m n ∧
    ∀ w ∈ recvNewRreqWords env s m n, w ≤ 5 := by
  -- The words read to answer or to pass the request on.
  have hanswer : ∀ destination, ∀ w ∈ answerOrForwardWords m destination, w ≤ 5 := by
    intro destination w hw
    have hfresher := knowsFresherWords_le m destination
    unfold answerOrForwardWords at hw
    rcases List.mem_append.mp hw with htest | hrest
    · split at htest
      · exact hfresher w htest
      · exact absurd htest List.not_mem_nil
    · split at hrest
      · exact absurd hrest List.not_mem_nil
      · split at hrest
        · exact absurd hrest List.not_mem_nil
        · rcases List.mem_append.mp hrest with hknows | hsent
          · exact hfresher w hknows
          · exact (by decide : ∀ w ∈ [0, 1, 2, 3, 4, 5], w ≤ 5) w hsent
  refine ⟨List.mem_append_left _ (by decide), fun w hw => ?_⟩
  rcases List.mem_append.mp hw with hfirst | hrest
  · exact (by decide : ∀ w ∈ [0, 4, 5, 1, 2], w ≤ 5) w hfirst
  · split at hrest
    · unfold sendRrepDestinationWords at hrest
      split at hrest
      · exact (by decide : ∀ w ∈ [3], w ≤ 5) w hrest
      · exact absurd hrest List.not_mem_nil
    · exact hanswer _ w hrest

theorem isDuplicateWords_le (ipAddress : U32) (e : RoutingEntry) :
    ∀ w ∈ isDuplicateWords ipAddress m e, w ≤ 2 := by
  unfold isDuplicateWords
  split
  · split
    · decide
    · decide
  · decide

/-- A request is read to the address of its originator, and past it if it is not
    dropped. -/
theorem recvRreqWords_le (length : Nat) :
    (∀ w ∈ recvRreqWords env s m n, 4 * w + 3 < length) ↔
      20 ≤ length ∧ (24 ≤ length ∨ dropped m (afterPreviousHop env s m.srcIp n)) := by
  have hnew := recvNewRreqWords_le env s (incrementHopRreq m) (afterPreviousHop env s m.srcIp n)
  have hfour : (∀ w ∈ [4], 4 * w + 3 < length) ↔ 20 ≤ length := by
    simp only [List.mem_singleton, forall_eq]
    omega
  -- Past the tests the last word is what counts.
  have hwhole : (∀ w ∈ recvNewRreqWords env s (incrementHopRreq m)
      (afterPreviousHop env s m.srcIp n), 4 * w + 3 < length) ↔ 24 ≤ length := by
    constructor
    · intro h
      have hlast := h 5 hnew.1
      omega
    · intro h w hw
      have hle := hnew.2 w hw
      omega
  simp only [recvRreqWords, List.forall_mem_append, hfour]
  unfold dropped
  generalize afterPreviousHop env s m.srcIp n = n' at hwhole
  by_cases hown : m.srcIp = n'.ipAddress
  · rw [if_pos hown]
    exact ⟨fun h => ⟨h.1, Or.inr (Or.inl hown)⟩,
      fun h => ⟨h.1, fun _ hw => absurd hw List.not_mem_nil⟩⟩
  · rw [if_neg hown]
    cases hfound : n'.getRoutingEntry m.srcIp with
    | none =>
        simp only [hwhole, hown, Option.any_none, Bool.false_eq_true, or_self, or_false]
    | some e =>
        have hcheck : 20 ≤ length →
            ∀ w ∈ isDuplicateWords n'.ipAddress m e, 4 * w + 3 < length := by
          intro hlong w hw
          have hle := isDuplicateWords_le m n'.ipAddress e w hw
          omega
        simp only [List.forall_mem_append, Option.any_some]
        by_cases hdup : isDuplicate n'.ipAddress m e = true
        · rw [if_pos hdup]
          exact ⟨fun h => ⟨h.1, Or.inr (Or.inr hdup)⟩,
            fun h => ⟨h.1, hcheck h.1, fun _ hw => absurd hw List.not_mem_nil⟩⟩
        · rw [if_neg hdup, hwhole]
          refine ⟨fun h => ⟨h.1, Or.inl h.2.2⟩, fun h => ⟨h.1, hcheck h.1, ?_⟩⟩
          exact h.2.resolve_right (fun hdrop => hdrop.elim hown hdup)

/-- The loop of a RERR stays within the words of its pairs. -/
theorem rerrLoopWords_le (word : Nat) (pairs : List (U32 × U32)) :
    ∀ w ∈ rerrLoopWords env s word pairs n, w + 1 ≤ word + 2 * pairs.length := by
  induction pairs generalizing word n with
  | nil => exact nofun
  | cons pair rest ih =>
      intro w hw
      rw [List.length_cons]
      -- Each pair takes two words, so the rest begins two further on.
      have hrest : ∀ n' : Node, w ∈ rerrLoopWords env s (word + 2) rest n' →
          w + 1 ≤ word + 2 * (rest.length + 1) := by
        intro n' hmem
        have hle := ih n' (word + 2) w hmem
        omega
      simp only [rerrLoopWords] at hw
      rcases List.mem_cons.mp hw with rfl | hw
      · omega
      · split at hw
        · exact hrest _ hw
        · split at hw
          · rcases List.mem_cons.mp hw with rfl | hw
            · omega
            · exact hrest _ hw
          · exact hrest _ hw

end Words

/-! ### The lengths that are enough -/

section Lengths

variable (env : Env) (src : U32) (payload : List Byte) (behind : Nat → Byte) (n : Node)

/-- The accesses of a call are to the type byte and to words. -/
theorem payloadAccesses_lt (bytes : Nat → Byte) (words : List Nat) (length : Nat)
    (h : payloadAccesses env src bytes n = 3 :: bytesOfWords words) :
    (∀ k ∈ payloadAccesses env src bytes n, k < length) ↔
      4 ≤ length ∧ ∀ w ∈ words, 4 * w + 3 < length := by
  rw [h, List.forall_mem_cons, bytesOfWords_lt]
  exact Iff.rfl

theorem payloadAccesses_own (bytes : Nat → Byte) (hown : src = n.ipAddress) :
    payloadAccesses env src bytes n = 3 :: bytesOfWords [] := by
  unfold payloadAccesses
  rw [if_pos hown]

theorem payloadAccesses_rreq (bytes : Nat → Byte) (hown : src ≠ n.ipAddress)
    (htype : bytes 3 = rreqType) :
    payloadAccesses env src bytes n =
      3 :: bytesOfWords (recvRreqWords env src (readRreq bytes) n) := by
  unfold payloadAccesses
  rw [if_neg hown, if_pos htype]

theorem payloadAccesses_rrep (bytes : Nat → Byte) (hown : src ≠ n.ipAddress)
    (htype : bytes 3 = rrepType) :
    payloadAccesses env src bytes n = 3 :: bytesOfWords recvRrepWords := by
  unfold payloadAccesses
  rw [if_neg hown, htype, if_neg (by decide), if_pos rfl]

theorem payloadAccesses_rerr (bytes : Nat → Byte) (hown : src ≠ n.ipAddress)
    (htype : bytes 3 = rerrType) :
    payloadAccesses env src bytes n = 3 :: bytesOfWords (recvRerrWords env src (readRerr bytes)
      (fun i => wordAt bytes (i + 1)) n) := by
  unfold payloadAccesses
  rw [if_neg hown, htype, if_neg (by decide), if_neg (by decide), if_pos rfl]

theorem payloadAccesses_other (bytes : Nat → Byte) (h1 : bytes 3 ≠ rreqType)
    (h2 : bytes 3 ≠ rrepType) (h3 : bytes 3 ≠ rerrType) :
    payloadAccesses env src bytes n = 3 :: bytesOfWords [] := by
  unfold payloadAccesses
  rw [if_neg h1, if_neg h2, if_neg h3, ite_self]

/-- The pairs of a RERR are accessed if it announces any. -/
theorem recvRerrWords_pairs (header : RerrHeader) (destPairs : Nat → U32)
    (hcount : header.destCount ≠ 0) : 1 ∈ recvRerrWords env src header destPairs n := by
  unfold recvRerrWords rerrPairs
  have hpos : 0 < header.destCount.toNat :=
    Nat.pos_of_ne_zero (fun h0 => hcount (BitVec.eq_of_toNat_eq h0))
  rcases Nat.exists_eq_succ_of_ne_zero (Nat.pos_iff_ne_zero.mp hpos) with ⟨k, hk⟩
  rw [hk, List.range_succ_eq_map, List.map_cons]
  exact List.mem_cons_of_mem _ List.mem_cons_self

theorem LongEnough.of_within (h : WithinPayload env src payload behind n) :
    LongEnough env src payload behind n := by
  generalize hbytes : payloadBytes payload behind = bytes
  rcases h with ⟨hbelow, hpairs⟩
  rw [hbytes] at hbelow hpairs
  have htype : 4 ≤ payload.length := hbelow 3 List.mem_cons_self
  refine ⟨htype, fun hown hrreq => ?_, fun hown hrrep => ?_, fun hown hrerr => ?_⟩
  · rw [hbytes] at hrreq ⊢
    have hwords := ((payloadAccesses_lt env src n bytes _ payload.length
      (payloadAccesses_rreq env src n bytes hown hrreq)).mp hbelow).2
    exact (recvRreqWords_le env src (readRreq bytes) n payload.length).mp hwords
  · rw [hbytes] at hrrep
    have hwords := ((payloadAccesses_lt env src n bytes _ payload.length
      (payloadAccesses_rrep env src n bytes hown hrrep)).mp hbelow).2
    have hlast := hwords 4 (by decide)
    omega
  · rw [hbytes] at hrerr ⊢
    by_cases hcount : (readRerr bytes).destCount = 0
    · rw [readRerr_destCount] at hcount
      rw [hcount]
      exact htype
    · -- The first pair is looked at, so all of them have to be there.
      refine hpairs hrerr ⟨4, ?_, Nat.le_refl 4⟩
      rw [payloadAccesses_rerr env src n bytes hown hrerr]
      exact List.mem_cons_of_mem _ (List.mem_flatMap.mpr
        ⟨1, recvRerrWords_pairs env src n _ _ hcount, by decide⟩)

theorem LongEnough.accesses_lt (h : LongEnough env src payload behind n) :
    ∀ k ∈ payloadAccesses env src (payloadBytes payload behind) n, k < payload.length := by
  generalize hbytes : payloadBytes payload behind = bytes
  rcases h with ⟨htype, hrreq, hrrep, hrerr⟩
  rw [hbytes] at hrreq hrrep hrerr
  -- A message from the node itself is dropped after its type is read.
  by_cases hown : src = n.ipAddress
  · rw [payloadAccesses_lt env src n bytes _ _ (payloadAccesses_own env src n bytes hown)]
    exact ⟨htype, nofun⟩
  · by_cases h1 : bytes 3 = rreqType
    · rw [payloadAccesses_lt env src n bytes _ _ (payloadAccesses_rreq env src n bytes hown h1)]
      exact ⟨htype, (recvRreqWords_le env src _ n payload.length).mpr (hrreq hown h1)⟩
    · by_cases h2 : bytes 3 = rrepType
      · rw [payloadAccesses_lt env src n bytes _ _ (payloadAccesses_rrep env src n bytes hown h2)]
        have hlong := hrrep hown h2
        refine ⟨htype, fun w hw => ?_⟩
        have hle := (by decide : ∀ w ∈ recvRrepWords, w ≤ 4) w hw
        omega
      · by_cases h3 : bytes 3 = rerrType
        · rw [payloadAccesses_lt env src n bytes _ _ (payloadAccesses_rerr env src n bytes hown h3)]
          have hlong := hrerr hown h3
          refine ⟨htype, fun w hw => ?_⟩
          rcases List.mem_cons.mp hw with rfl | hw
          · omega
          · have hle := rerrLoopWords_le env src n 1 _ w hw
            rw [rerrPairs, List.length_map, List.length_range, readRerr_destCount] at hle
            omega
        · rw [payloadAccesses_lt env src n bytes _ _
            (payloadAccesses_other env src n bytes h1 h2 h3)]
          exact ⟨htype, nofun⟩

/-- No byte behind the end of a payload is accessed, and no pair of a RERR that is
    cut short, exactly when the payload is long enough. -/
theorem withinPayload_iff_longEnough :
    WithinPayload env src payload behind n ↔ LongEnough env src payload behind n := by
  refine ⟨LongEnough.of_within env src payload behind n, fun h => ?_⟩
  refine ⟨h.accesses_lt env src payload behind n, fun htype hpair => ?_⟩
  by_cases hown : src = n.ipAddress
  · rcases hpair with ⟨k, hk, hge⟩
    rw [payloadAccesses_own env src n _ hown] at hk
    have hthree := List.mem_singleton.mp hk
    omega
  · exact h.rerr hown htype

end Lengths

/-! ### What lies behind a payload -/

/-- The node after a call with a payload with these bytes from its start on. -/
def receivedStep (env : Env) (src : U32) (bytes : Nat → Byte) (n : Node) : Node :=
  match readMessage bytes with
  | none => n
  | some message => step n ⟨env, .control src message⟩

theorem rawStep_received (env : Env) (src : U32) (payload : List Byte) (n : Node) :
    rawStep n (⟨env.now, .received src payload⟩, env.memory) =
      receivedStep env src (payloadBytes payload (env.memory .payload)) n := by
  simp only [rawStep, RawInput.read, RawEvent.read, receivedStep]
  cases readMessage (payloadBytes payload (env.memory .payload)) with
  | none => rfl
  | some message => rfl

section Behind

variable (env : Env) (src : U32) (payload : List Byte) (behind : Nat → Byte) (n : Node)

theorem step_sameMessage (message message' : ControlMessage) (h : SameMessage message message') :
    step n ⟨env, .control src message⟩ = step n ⟨env, .control src message'⟩ := by
  cases message with
  | rreq m =>
      cases message' with
      | rreq m' => rw [show m = m' from h]
      | rrep | rerr => exact absurd h id
  | rrep m =>
      cases message' with
      | rrep m' => rw [show m = m' from h]
      | rreq | rerr => exact absurd h id
  | rerr m destPairs =>
      cases message' with
      | rerr m' destPairs' =>
          rcases h with ⟨rfl, hpairs⟩
          rw [step_rerr, step_rerr, recvRerr, recvRerr, hpairs]
      | rreq | rrep => exact absurd h id

/-- A node does not listen to itself. -/
theorem receivedStep_own (bytes : Nat → Byte) (hown : src = n.ipAddress) :
    receivedStep env src bytes n = n := by
  unfold receivedStep
  cases readMessage bytes with
  | none => rfl
  | some message =>
      rw [hown]
      exact step_own n env message

/-- A dropped request leaves what the previous-hop section made. -/
theorem receivedStep_dropped (bytes : Nat → Byte) (hown : src ≠ n.ipAddress)
    (htype : bytes 3 = rreqType)
    (hdrop : dropped (readRreq bytes) (afterPreviousHop env src (readRreq bytes).srcIp n)) :
    receivedStep env src bytes n = afterPreviousHop env src (readRreq bytes).srcIp n := by
  have hread : readMessage bytes = some (.rreq (readRreq bytes)) := by
    unfold readMessage
    rw [if_pos htype]
  unfold receivedStep
  rw [hread]
  simp only []
  rw [step_rreq, if_neg hown, recvRreq_dropped env src (readRreq bytes) n hdrop]

theorem receivedStep_complete (h : Complete payload) :
    receivedStep env src (payloadBytes payload behind) n =
      receivedStep env src (payloadBytes payload fun _ => 0) n := by
  have hread := readMessage_complete payload behind h
  unfold receivedStep
  revert hread
  -- Behind a complete message nothing is read, so both are read alike.
  cases readMessage (payloadBytes payload behind) with
  | none =>
      cases readMessage (payloadBytes payload fun _ => 0) with
      | none => exact fun _ => rfl
      | some message' => exact nofun
  | some message =>
      cases readMessage (payloadBytes payload fun _ => 0) with
      | none => exact nofun
      | some message' =>
          intro hread
          cases hread with
          | some hsame => exact step_sameMessage env src n message message' hsame

/-- A payload that is long enough is complete, or a request that ends before its last
    word and is dropped. -/
theorem LongEnough.complete_or_dropped (h : LongEnough env src payload behind n)
    (hown : src ≠ n.ipAddress) :
    Complete payload ∨ (payloadBytes payload behind 3 = rreqType ∧ 20 ≤ payload.length ∧
      dropped (readRreq (payloadBytes payload behind))
        (afterPreviousHop env src (readRreq (payloadBytes payload behind)).srcIp n)) := by
  rcases h with ⟨htype, hrreq, hrrep, hrerr⟩
  have htypeByte : ∀ t, payload[3]? = some t → payloadBytes payload behind 3 = t := by
    intro t ht
    unfold payloadBytes
    rw [List.getD_eq_getElem?_getD, ht, Option.getD_some]
  have hcount : payloadBytes payload behind 0 = payload.headD 0 := by
    cases payload with
    | nil => exact absurd htype (by decide)
    | cons b rest => rfl
  -- A short request is dropped before its last word is read.
  by_cases hdrop : payloadBytes payload behind 3 = rreqType ∧ payload.length < 24
  · rcases hrreq hown hdrop.1 with ⟨hlong, hrest⟩
    exact Or.inr ⟨hdrop.1, hlong, hrest.resolve_left (by omega)⟩
  · refine Or.inl ⟨htype, fun ht => ?_, fun ht => hrrep hown (htypeByte _ ht), fun ht => ?_⟩
    · have hlong : ¬ payload.length < 24 := fun hlt => hdrop ⟨htypeByte _ ht, hlt⟩
      omega
    · rw [← hcount]
      exact hrerr hown (htypeByte _ ht)

/-- If no byte behind the end is accessed, what lies there makes no difference. -/
theorem receivedStep_behind (h : WithinPayload env src payload behind n) (behind' : Nat → Byte) :
    receivedStep env src (payloadBytes payload behind) n =
      receivedStep env src (payloadBytes payload behind') n := by
  have hlong := LongEnough.of_within env src payload behind n h
  by_cases hown : src = n.ipAddress
  · rw [receivedStep_own env src n _ hown, receivedStep_own env src n _ hown]
  · rcases hlong.complete_or_dropped env src payload behind n hown with
      hcomplete | ⟨htype, hlen, hdrop⟩
    · rw [receivedStep_complete env src payload behind n hcomplete,
        receivedStep_complete env src payload behind' n hcomplete]
    · -- Only the last word can differ, and a dropped request is left before it.
      have hword := wordAt_payload payload behind behind'
      have htype' : payloadBytes payload behind' 3 = rreqType := by
        rw [← htype]
        exact payloadBytes_lt payload behind' behind 3 hlong.type
      have hread : readRreq (payloadBytes payload behind') =
          { readRreq (payloadBytes payload behind) with
            srcSeq := wordAt (payloadBytes payload behind') 5 } := by
        unfold readRreq
        rw [hword 0 (by omega), hword 1 (by omega), hword 2 (by omega), hword 3 (by omega),
          hword 4 (by omega)]
      rw [receivedStep_dropped env src n _ hown htype hdrop,
        receivedStep_dropped env src n _ hown htype' (by rw [hread]; exact hdrop), hread]

end Behind

/-! ### A RERR that ends after its header -/

/-- A RERR that announces one destination and has no pair. -/
def shortError : List Byte := [1, 0, 0, rerrType]

theorem not_withinPayload_shortError :
    ¬ ∀ (env : Env) (src : U32) (payload : List Byte) (behind : Nat → Byte) (n : Node),
      WithinPayload env src payload behind n := by
  intro h
  have hlong := LongEnough.of_within _ _ _ _ _
    (h .clear 0x02000000 shortError (fun _ => 0) (.boot 0x01000000 0xFF000000 fun _ => 0))
  exact absurd (hlong.rerr (by decide) (by decide)) (by decide)

end OpenManet
