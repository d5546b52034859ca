import OpenManet.Core.Payload

/-!
# The Wire Format

Byte for byte, what the generators build and the handlers read. The three headers
share one layout: a word of bit fields with the type in its top byte, which is the
byte `payload[3]` the dispatch looks at, and full words behind it. Every argument
of a generator is read back as far as its field has room for it.

The headers are updated in place. An update of a bit field reads the word, changes
some of its bits and writes it back; `ChangesOnly` says which bits of the message
may come out different. Since every 24 bytes are the bytes of the header read from
them, what is said of headers is said of buffers.

## Main definitions

* `messageBit`, `ChangesOnly`: The bits of a message.
* `RreqOnWire`, `RrepOnWire`, `RerrOnWire`: What becomes of the arguments of the
  generators.
* `UpdatesInPlace`: The three updates of a received message.

## Theorems

* `messageBit_words`: The bits of a message are those of its words.
* `rreq_bytes_read`, `rrep_bytes_read`: Every buffer holds the header read from it.
* `wire_round_trip`: All of it.
-/

namespace OpenManet

/-- A bit of a message, counted from the first byte and its lowest bit. -/
def messageBit (bytes : List Byte) (k : Nat) : Bool := (bytes.getD (k / 8) 0).getLsbD (k % 8)

/-- Only the bits of one field differ. -/
def ChangesOnly (start width : Nat) (bytes bytes' : List Byte) : Prop :=
  bytes'.length = bytes.length ∧
    ∀ k, k < start ∨ start + width ≤ k → messageBit bytes' k = messageBit bytes k

/-! ### Bits and words -/

theorem messageBit_words (ws : List U32) (rest : List Byte) (k : Nat) (h : k / 32 < ws.length) :
    messageBit (ws.flatMap wordBytes ++ rest) k = ws[k / 32].getLsbD (k % 32) := by
  have hbyte := flatMap_wordBytes_getElem? ws rest (k / 32) (k / 8 % 4) h (Nat.mod_lt _ (by omega))
  have hindex : 4 * (k / 32) + k / 8 % 4 = k / 8 := by omega
  have hbit : 8 * (k / 8 % 4) + k % 8 = k % 32 := by omega
  rw [hindex] at hbyte
  unfold messageBit
  rw [List.getD_eq_getElem?_getD, hbyte, Option.getD_some, BitVec.getLsbD_extractLsb', hbit,
    decide_eq_true (Nat.mod_lt k (by omega)), Bool.true_and]

/-- Behind its first word a message is the rest of it. -/
theorem messageBit_tail (w : U32) (bytes : List Byte) (k : Nat) (h : 32 ≤ k) :
    messageBit (wordBytes w ++ bytes) k = messageBit bytes (k - 32) := by
  have hlen : (wordBytes w).length = 4 := rfl
  have hindex : k / 8 - 4 = (k - 32) / 8 := by omega
  have hbit : k % 8 = (k - 32) % 8 := by omega
  unfold messageBit
  rw [List.getD_eq_getElem?_getD, List.getElem?_append_right (by omega), hlen, hindex, hbit,
    ← List.getD_eq_getElem?_getD]

/-- A field of the first word is changed and nothing else. -/
theorem changesOnly_firstWord (start width : Nat) (w w' : U32) (bytes : List Byte)
    (hw : ∀ k, k < 32 → k < start ∨ start + width ≤ k → w'.getLsbD k = w.getLsbD k) :
    ChangesOnly start width (wordBytes w ++ bytes) (wordBytes w' ++ bytes) := by
  refine ⟨rfl, fun k hk => ?_⟩
  by_cases hfirst : k < 32
  · have hzero : k / 32 = 0 := by omega
    have hword : ∀ w : U32, messageBit (wordBytes w ++ bytes) k = w.getLsbD k := by
      intro w
      have h := messageBit_words [w] bytes k (by rw [hzero]; exact Nat.one_pos)
      simp only [List.flatMap_cons, List.flatMap_nil, List.append_nil, hzero,
        List.getElem_cons_zero, Nat.mod_eq_of_lt hfirst] at h
      exact h
    rw [hword, hword, hw k hfirst hk]
  · rw [messageBit_tail w' bytes k (by omega), messageBit_tail w bytes k (by omega)]

theorem wordAt_byte (bytes : Nat → Byte) (i k : Nat) (hk : k < 4) :
    (wordAt bytes i).extractLsb' (8 * k) 8 = bytes (4 * i + k) := by
  unfold wordAt
  match k, hk with
  | 0, _ | 1, _ | 2, _ | 3, _ =>
      ext j hj
      simp only [BitVec.getElem_extractLsb', BitVec.getLsbD_append]
      grind

/-- The bytes of the words of a buffer are the buffer. -/
theorem flatMap_wordAt (bytes : List Byte) (behind : Nat → Byte) (n : Nat)
    (h : bytes.length = 4 * n) :
    ((List.range n).map (wordAt (payloadBytes bytes behind))).flatMap wordBytes = bytes := by
  refine List.ext_getElem? (fun k => ?_)
  by_cases hk : k < bytes.length
  · have hword : k / 4 < ((List.range n).map (wordAt (payloadBytes bytes behind))).length := by
      rw [List.length_map, List.length_range]
      omega
    have hbyte := flatMap_wordBytes_getElem? _ [] (k / 4) (k % 4) hword (Nat.mod_lt k (by omega))
    rw [List.append_nil, List.getElem_map, List.getElem_range, Nat.div_add_mod] at hbyte
    rw [hbyte, wordAt_byte _ _ _ (Nat.mod_lt k (by omega)), Nat.div_add_mod]
    unfold payloadBytes
    rw [List.getD_eq_getElem?_getD, List.getElem?_eq_getElem hk, Option.getD_some]
  · have hlen := flatMap_wordBytes_length ((List.range n).map (wordAt (payloadBytes bytes behind)))
    rw [List.length_map, List.length_range] at hlen
    rw [List.getElem?_eq_none (by omega), List.getElem?_eq_none (by omega)]

/-! ### Buffers hold headers -/

theorem firstWord_readRreq (bytes : Nat → Byte) :
    (readRreq bytes).firstWord = wordAt bytes 0 := by
  show (wordAt bytes 0).extractLsb' 24 8 ++ (wordAt bytes 0).extractLsb' 19 5 ++
    (wordAt bytes 0).extractLsb' 8 11 ++ (wordAt bytes 0).extractLsb' 0 8 = wordAt bytes 0
  rw [BitVec.extractLsb'_append_extractLsb'_eq_extractLsb' (rfl : 24 = 19 + 5),
    BitVec.extractLsb'_append_extractLsb'_eq_extractLsb' (rfl : 19 = 8 + 11),
    BitVec.extractLsb'_append_extractLsb'_eq_extractLsb' (rfl : 8 = 0 + 8)]
  exact BitVec.extractLsb'_eq_self

theorem firstWord_readRrep (bytes : Nat → Byte) :
    (readRrep bytes).firstWord = wordAt bytes 0 := by
  show (wordAt bytes 0).extractLsb' 24 8 ++ (wordAt bytes 0).extractLsb' 22 2 ++
    (wordAt bytes 0).extractLsb' 13 9 ++ (wordAt bytes 0).extractLsb' 8 5 ++
    (wordAt bytes 0).extractLsb' 0 8 = wordAt bytes 0
  rw [BitVec.extractLsb'_append_extractLsb'_eq_extractLsb' (rfl : 24 = 22 + 2),
    BitVec.extractLsb'_append_extractLsb'_eq_extractLsb' (rfl : 22 = 13 + 9),
    BitVec.extractLsb'_append_extractLsb'_eq_extractLsb' (rfl : 13 = 8 + 5),
    BitVec.extractLsb'_append_extractLsb'_eq_extractLsb' (rfl : 8 = 0 + 8)]
  exact BitVec.extractLsb'_eq_self

/-- Every buffer of the size of a RREQ holds the RREQ read from it. -/
theorem rreq_bytes_read (bytes : List Byte) (behind : Nat → Byte) (h : bytes.length = 24) :
    (Packet.rreq (readRreq (payloadBytes bytes behind))).bytes = some bytes := by
  have hwords := flatMap_wordAt bytes behind 6 h
  rw [Packet.bytes, firstWord_readRreq]
  exact congrArg some hwords

/-- Every buffer of the size of a RREP holds the RREP read from it. -/
theorem rrep_bytes_read (bytes : List Byte) (behind : Nat → Byte) (h : bytes.length = 20) :
    (Packet.rrep (readRrep (payloadBytes bytes behind)) []).bytes = some bytes := by
  have hwords := flatMap_wordAt bytes behind 5 h
  rw [Packet.bytes, firstWord_readRrep, List.append_nil]
  exact congrArg some hwords

/-! ### The generators -/

/-- The handler a message is dispatched to by a node it does not come from. -/
def Dispatches (bytes : List Byte) (handler : Env → U32 → Handler) : Prop :=
  ∀ (n : Node) (now : Timespec) (memory : Memory) (src : U32), src ≠ n.ipAddress →
    rawStep n ({ now := now, event := .received src bytes }, memory) =
      ((handler { now := now, memory := memory } src).exec Op.apply n).1

/-- The arguments of `generate_rreq_message`, on the wire. -/
structure RreqOnWire (flags : Byte) (rreqId destIp destSeq originIp originSeq : U32)
    (bytes : List Byte) : Prop where
  built : (Packet.rreq (generateRreqMessage flags rreqId destIp destSeq originIp originSeq)).bytes =
    some bytes
  length : bytes.length = 24
  type : bytes[3]? = some rreqType
  view : ∀ behind, readRreq (payloadBytes bytes behind) =
    { type := rreqType, flags := flags.setWidth 5, ttl := 0, hopCount := 0, rreqId := rreqId
      destIp := destIp, destSeq := destSeq, srcIp := originIp, srcSeq := originSeq }
  dispatch : Dispatches bytes fun env src =>
    recvRreq env src (generateRreqMessage flags rreqId destIp destSeq originIp originSeq)

/-- The arguments of `generate_rrep_message`, on the wire. The prefix size is what
    the block contained. -/
structure RrepOnWire (block : Nat → Byte) (flags : Byte) (destIp destSeq originIp lifeTime : U32)
    (bytes : List Byte) : Prop where
  built :
    (Packet.rrep (generateRrepMessage block flags destIp destSeq originIp lifeTime) []).bytes =
    some bytes
  length : bytes.length = 20
  type : bytes[3]? = some rrepType
  view : ∀ behind, readRrep (payloadBytes bytes behind) =
    { type := rrepType, flags := flags.setWidth 2, reserved := 0
      prefixSize := (block 1).setWidth 5, hopCount := 0, destIp := destIp, destSeq := destSeq
      srcIp := originIp, lifetime := lifeTime }
  dispatch : Dispatches bytes fun env src =>
    recvRrep env src (generateRrepMessage block flags destIp destSeq originIp lifeTime)

/-- The words of a list of pairs. -/
def pairWords (pairs : List (U32 × U32)) : List U32 := pairs.flatMap fun p => [p.1, p.2]

/-- The arguments of the two generators of RERRs, on the wire. The buffer version
    is given an array that starts with the pairs. -/
structure RerrOnWire (n : Byte) (pairs : List (U32 × U32)) (bytes : List Byte) : Prop where
  built : ∃ header words,
    generateRerrMessage n (BitVec.ofNat 8 pairs.length) (pairWords pairs) = some (header, words) ∧
      (Packet.rerr header words).bytes = some bytes
  built_buff : ∀ array : Nat → U32, (∀ i, i < (pairWords pairs).length →
      (pairWords pairs)[i]? = some (array i)) →
    generateRerrMessageBuff n (BitVec.ofNat 8 pairs.length) array =
      generateRerrMessage n (BitVec.ofNat 8 pairs.length) (pairWords pairs)
  length : bytes.length = 4 + 8 * pairs.length
  type : bytes[3]? = some rerrType
  view : ∀ behind, readRerr (payloadBytes bytes behind) =
    { type := rerrType, n := n.setWidth 1, reserved := 0
      destCount := BitVec.ofNat 8 pairs.length }
  view_pairs : ∀ behind, rerrPairs (readRerr (payloadBytes bytes behind)).destCount
    (fun i => wordAt (payloadBytes bytes behind) (i + 1)) = pairs
  dispatch : ∀ (node : Node) (now : Timespec) (memory : Memory) (src : U32), src ≠ node.ipAddress →
    rawStep node ({ now := now, event := .received src bytes }, memory) =
      ((recvRerr { now := now, memory := memory } src (rerrHeader n (BitVec.ofNat 8 pairs.length))
        fun i => wordAt (payloadBytes bytes (memory .payload)) (i + 1)).exec Op.apply node).1

/-- The updates of a received message change their own field, modulo its width,
    and no other bit. -/
structure UpdatesInPlace : Prop where
  hopRreq : ∀ (m : RreqHeader) (bytes : List Byte), (Packet.rreq m).bytes = some bytes →
    ∃ bytes', (Packet.rreq (incrementHopRreq m)).bytes = some bytes' ∧
      ChangesOnly 0 8 bytes bytes' ∧ ∀ behind,
        (readRreq (payloadBytes bytes' behind)).hopCount = m.hopCount + 1
  hopRrep : ∀ (m : RrepHeader) (beyond bytes : List Byte),
    (Packet.rrep m beyond).bytes = some bytes →
    ∃ bytes', (Packet.rrep (incrementHopRrep m) beyond).bytes = some bytes' ∧
      ChangesOnly 0 8 bytes bytes' ∧ ∀ behind,
        (readRrep (payloadBytes bytes' behind)).hopCount = m.hopCount + 1
  ttl : ∀ (m : RreqHeader) (bytes : List Byte), (Packet.rreq m).bytes = some bytes →
    ∃ bytes', (Packet.rreq { m with ttl := m.ttl - 1 }).bytes = some bytes' ∧
      ChangesOnly 8 11 bytes bytes' ∧ ∀ behind,
        (readRreq (payloadBytes bytes' behind)).ttl = m.ttl - 1

theorem updatesInPlace : UpdatesInPlace where
  hopRreq := by
    intro m bytes h
    simp only [Packet.bytes, Option.some.injEq] at h
    refine ⟨_, rfl, ?_, fun behind => ?_⟩
    · rw [← h]
      -- The hop count is the lowest byte of the first word.
      refine changesOnly_firstWord 0 8 _ _ _ (fun k hk hother => ?_)
      simp only [RreqHeader.firstWord, incrementHopRreq, BitVec.getLsbD_append]
      grind
    · rw [readRreq_bytes behind _ (incrementHopRreq m) rfl]
      rfl
  hopRrep := by
    intro m beyond bytes h
    simp only [Packet.bytes, Option.some.injEq] at h
    refine ⟨_, rfl, ?_, fun behind => ?_⟩
    · rw [← h, List.flatMap_cons, List.flatMap_cons, List.append_assoc, List.append_assoc]
      refine changesOnly_firstWord 0 8 _ _ _ (fun k hk hother => ?_)
      simp only [RrepHeader.firstWord, incrementHopRrep, BitVec.getLsbD_append]
      grind
    · rw [readRrep_bytes behind _ (incrementHopRrep m) beyond rfl]
      rfl
  ttl := by
    intro m bytes h
    simp only [Packet.bytes, Option.some.injEq] at h
    refine ⟨_, rfl, ?_, fun behind => ?_⟩
    · rw [← h]
      -- The TTL is in the eleven bits above the hop count.
      refine changesOnly_firstWord 8 11 _ _ _ (fun k hk hother => ?_)
      simp only [RreqHeader.firstWord, BitVec.getLsbD_append]
      grind
    · rw [readRreq_bytes behind _ { m with ttl := m.ttl - 1 } rfl]

/-! ### The round trip -/

theorem rawStep_dispatch (bytes : List Byte) (message : (Nat → Byte) → ControlMessage)
    (hread : ∀ behind, readMessage (payloadBytes bytes behind) = some (message behind))
    (n : Node) (now : Timespec) (memory : Memory) (src : U32) :
    rawStep n ({ now := now, event := .received src bytes }, memory) =
      ((incomingControlMessage { now := now, memory := memory } src
        (message (memory .payload))).exec Op.apply n).1 := by
  simp only [rawStep, RawInput.read, RawEvent.read, hread, Option.map_some]
  rfl

theorem rreq_onWire (flags : Byte) (rreqId destIp destSeq originIp originSeq : U32) :
    ∃ bytes, RreqOnWire flags rreqId destIp destSeq originIp originSeq bytes := by
  have hread := fun behind => readMessage_rreq behind _
    (generateRreqMessage flags rreqId destIp destSeq originIp originSeq) rfl rfl
  refine ⟨_, rfl, rfl, ?_, fun behind => readRreq_bytes behind _ _ rfl, ?_⟩
  · exact congrArg some (rreq_firstWord _).1
  · intro n now memory src hsrc
    rw [rawStep_dispatch _ _ hread]
    simp only [incomingControlMessage, Prog.exec, if_neg hsrc]

theorem rrep_onWire (block : Nat → Byte) (flags : Byte) (destIp destSeq originIp lifeTime : U32) :
    ∃ bytes, RrepOnWire block flags destIp destSeq originIp lifeTime bytes := by
  have hread := fun behind => readMessage_rrep behind _
    (generateRrepMessage block flags destIp destSeq originIp lifeTime) [] rfl rfl
  refine ⟨_, rfl, rfl, ?_, fun behind => readRrep_bytes behind _ _ [] rfl, ?_⟩
  · exact congrArg some (rrep_firstWord _).1
  · intro n now memory src hsrc
    rw [rawStep_dispatch _ _ hread]
    simp only [incomingControlMessage, Prog.exec, if_neg hsrc]

theorem pairWords_length (pairs : List (U32 × U32)) :
    (pairWords pairs).length = 2 * pairs.length := by
  induction pairs with
  | nil => rfl
  | cons p pairs ih =>
      unfold pairWords at ih ⊢
      rw [List.flatMap_cons, List.length_append, ih, List.length_cons]
      show 2 + 2 * pairs.length = 2 * (pairs.length + 1)
      omega

/-- The words at the places of a pair. -/
theorem pairWords_getElem? (pairs : List (U32 × U32)) (i : Nat) (h : i < pairs.length) :
    (pairWords pairs)[2 * i]? = some pairs[i].1 ∧
      (pairWords pairs)[2 * i + 1]? = some pairs[i].2 := by
  induction pairs generalizing i with
  | nil => simp only [List.length_nil, Nat.not_lt_zero] at h
  | cons p pairs ih =>
      have hcons : pairWords (p :: pairs) = p.1 :: p.2 :: pairWords pairs := rfl
      rw [hcons]
      cases i with
      | zero => exact ⟨rfl, rfl⟩
      | succ i => exact ih i (Nat.lt_of_succ_lt_succ h)

/-- The pairs read from words that hold them. -/
theorem rerrPairs_pairWords (pairs : List (U32 × U32)) (count : Byte) (array : Nat → U32)
    (hcount : count.toNat = pairs.length)
    (harray : ∀ i (hi : i < (pairWords pairs).length), array i = (pairWords pairs)[i]) :
    rerrPairs count array = pairs := by
  have hlen := pairWords_length pairs
  unfold rerrPairs
  refine List.ext_getElem (by rw [List.length_map, List.length_range, hcount]) (fun i hi hi' => ?_)
  rcases pairWords_getElem? pairs i hi' with ⟨hfirst, hsecond⟩
  rw [List.getElem?_eq_getElem (by omega), Option.some.injEq] at hfirst hsecond
  rw [List.getElem_map, List.getElem_range, harray _ (by omega), harray _ (by omega), hfirst,
    hsecond]

theorem rerr_onWire (n : Byte) (pairs : List (U32 × U32)) (hpos : 1 ≤ pairs.length)
    (hmax : pairs.length ≤ 255) : ∃ bytes, RerrOnWire n pairs bytes := by
  have hcount : (BitVec.ofNat 8 pairs.length).toNat = pairs.length := by
    rw [BitVec.toNat_ofNat]
    omega
  have hne : ¬ BitVec.ofNat 8 pairs.length = 0 := by
    intro hzero
    rw [hzero] at hcount
    have hnone : (0 : Byte).toNat = 0 := rfl
    omega
  have hlen := pairWords_length pairs
  have hgen : generateRerrMessage n (BitVec.ofNat 8 pairs.length) (pairWords pairs) =
      some (rerrHeader n (BitVec.ofNat 8 pairs.length), pairWords pairs) := by
    rw [generateRerrMessage, if_neg hne, List.take_of_length_le (by omega)]
  have hread := fun behind => readMessage_rerr behind _
    (rerrHeader n (BitVec.ofNat 8 pairs.length)) (pairWords pairs) rfl rfl
  have hback := fun behind => readRerr_bytes behind _
    (rerrHeader n (BitVec.ofNat 8 pairs.length)) (pairWords pairs) rfl
  refine ⟨_, ⟨_, _, hgen, rfl⟩, fun array harray => ?_, ?_, ?_, fun behind => (hback behind).1,
    fun behind => ?_, ?_⟩
  · rw [hgen, generateRerrMessageBuff, if_neg hne, hcount, ← hlen]
    -- The words copied from the array are the words of the pairs.
    have hwords : (List.range (pairWords pairs).length).map array = pairWords pairs := by
      refine List.ext_getElem (by rw [List.length_map, List.length_range]) (fun i hi hi' => ?_)
      have hsame := harray i hi'
      rw [List.getElem?_eq_getElem hi', Option.some.injEq] at hsame
      rw [List.getElem_map, List.getElem_range, hsame]
    rw [hwords]
  · rw [flatMap_wordBytes_length, List.length_cons, hlen]
    omega
  · exact congrArg some (rerr_firstWord _).1
  · rw [(hback behind).1]
    exact rerrPairs_pairWords pairs _ _ hcount (hback behind).2
  · intro node now memory src hsrc
    rw [rawStep_dispatch _ _ hread]
    simp only [incomingControlMessage, Prog.exec, if_neg hsrc]

/-- The generators and the handlers agree on the format: for all arguments, on any
    buffer. -/
theorem wire_round_trip :
    (∀ flags rreqId destIp destSeq originIp originSeq,
      ∃ bytes, RreqOnWire flags rreqId destIp destSeq originIp originSeq bytes) ∧
    (∀ block flags destIp destSeq originIp lifeTime,
      ∃ bytes, RrepOnWire block flags destIp destSeq originIp lifeTime bytes) ∧
    (∀ n (pairs : List (U32 × U32)), 1 ≤ pairs.length → pairs.length ≤ 255 →
      ∃ bytes, RerrOnWire n pairs bytes) ∧
    (∀ (bytes : List Byte) behind, bytes.length = 24 →
      (Packet.rreq (readRreq (payloadBytes bytes behind))).bytes = some bytes) ∧
    (∀ (bytes : List Byte) behind, bytes.length = 20 →
      (Packet.rrep (readRrep (payloadBytes bytes behind)) []).bytes = some bytes) ∧
    UpdatesInPlace :=
  ⟨rreq_onWire, rrep_onWire, rerr_onWire, rreq_bytes_read, rrep_bytes_read, updatesInPlace⟩

/-- One destination, the flag set. -/
theorem wire_round_trip_rerr : ∃ bytes, RerrOnWire 1 [(0x03000000, 7)] bytes :=
  wire_round_trip.2.2.1 1 [(0x03000000, 7)] (by decide) (by decide)

end OpenManet
