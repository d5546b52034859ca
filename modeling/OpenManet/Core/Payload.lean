import OpenManet.Core.Machine

/-!
# Received Payloads

What reaches a node from the air is a list of bytes. The handlers cast the
pointer to it to a header and read the fields, and nothing compares the length of
what arrived with the size of the header: what lies behind a payload is read as
if it belonged to it. A `RawInput` is an input with the bytes in place of the
message, and `RawInput.read` is what the handlers make of it in given memory.

## Main definitions

* `readRreq`, `readRrep`, `readRerr`, `readMessage`: The casts.
* `RawEvent`, `RawInput`: What can happen to a node, in bytes.
* `RawInput.read`: The input the handlers see.
* `rawStep`: The node after an input in given memory.

## Theorems

* `wordAt_wordBytes`: A word is read back from its bytes.
* `readRreq_bytes`, `readRrep_bytes`, `readRerr_bytes`: A header is read back from
  the packet it is sent in, whatever lies behind it.
* `readMessage_rreq`, `readMessage_rrep`, `readMessage_rerr`: So is a message.
-/

namespace OpenManet

/-- The bytes from the start of a payload on. -/
def payloadBytes (payload : List Byte) (behind : Nat → Byte) (k : Nat) : Byte :=
  payload.getD k (behind k)

/-- The cast to `rreq_header`. -/
def readRreq (bytes : Nat → Byte) : RreqHeader :=
  let word := wordAt bytes 0
  { type := word.extractLsb' 24 8, flags := word.extractLsb' 19 5
    ttl := word.extractLsb' 8 11, hopCount := word.extractLsb' 0 8
    rreqId := wordAt bytes 1, destIp := wordAt bytes 2, destSeq := wordAt bytes 3
    srcIp := wordAt bytes 4, srcSeq := wordAt bytes 5 }

/-- The cast to `rrep_header`. -/
def readRrep (bytes : Nat → Byte) : RrepHeader :=
  let word := wordAt bytes 0
  { type := word.extractLsb' 24 8, flags := word.extractLsb' 22 2
    reserved := word.extractLsb' 13 9, prefixSize := word.extractLsb' 8 5
    hopCount := word.extractLsb' 0 8
    destIp := wordAt bytes 1, destSeq := wordAt bytes 2, srcIp := wordAt bytes 3
    lifetime := wordAt bytes 4 }

/-- The cast to `rerr_header`. -/
def readRerr (bytes : Nat → Byte) : RerrHeader :=
  let word := wordAt bytes 0
  { type := word.extractLsb' 24 8, n := word.extractLsb' 23 1
    reserved := word.extractLsb' 8 15, destCount := word.extractLsb' 0 8 }

/-- The dispatch on `payload[3]`. -/
def readMessage (bytes : Nat → Byte) : Option ControlMessage :=
  if bytes 3 = rreqType then some (.rreq (readRreq bytes))
  else if bytes 3 = rrepType then some (.rrep (readRrep bytes))
  else if bytes 3 = rerrType then some (.rerr (readRerr bytes) fun i => wordAt bytes (i + 1))
  else none

/-- An event with a message as it arrives. -/
inductive RawEvent where
  | received (src : U32) (payload : List Byte)
  | data (src dest : U32)
  | outgoing (dest : U32)
  | forwarded (src dest : U32)
  | search (id : Nat)
  | wait (k : Nat)
  | expire (ip : U32)
  | rreqIdExpire (ip : U32)
  | hello

structure RawInput where
  now : Timespec
  event : RawEvent

/-- The event the handlers see; there is none when the type of a message is not
    one of the three. -/
def RawEvent.read (memory : Memory) : RawEvent → Option Event
  | received src payload =>
    (readMessage (payloadBytes payload (memory .payload))).map (.control src)
  | data src dest => some (.data src dest)
  | outgoing dest => some (.outgoing dest)
  | forwarded src dest => some (.forwarded src dest)
  | search id => some (.search id)
  | wait k => some (.wait k)
  | expire ip => some (.expire ip)
  | rreqIdExpire ip => some (.rreqIdExpire ip)
  | hello => some .hello

def RawInput.read (memory : Memory) (input : RawInput) : Option Input :=
  (input.event.read memory).map fun event =>
    { env := { now := input.now, memory := memory }, event := event }

/-- The node after an input, in the memory the input's execution finds. A message
    of another type is passed over. -/
def rawStep (n : Node) (input : RawInput × Memory) : Node :=
  match input.1.read input.2 with
  | none => n
  | some i => step n i

/-! ### What is sent is read back -/

theorem wordBytes_getElem? (w : U32) (rest : List Byte) (k : Nat) (hk : k < 4) :
    (wordBytes w ++ rest)[k]? = some (w.extractLsb' (8 * k) 8) := by
  match k, hk with
  | 0, _ | 1, _ | 2, _ | 3, _ => rfl

theorem flatMap_wordBytes_getElem? (ws : List U32) (rest : List Byte) (i k : Nat)
    (hi : i < ws.length) (hk : k < 4) :
    (ws.flatMap wordBytes ++ rest)[4 * i + k]? = some (ws[i].extractLsb' (8 * k) 8) := by
  induction ws generalizing i with
  | nil => simp only [List.length_nil, Nat.not_lt_zero] at hi
  | cons w ws ih =>
      rw [List.flatMap_cons, List.append_assoc]
      cases i with
      | zero =>
          rw [Nat.mul_zero, Nat.zero_add]
          exact wordBytes_getElem? w _ k hk
      | succ i =>
          have hlen : (wordBytes w).length = 4 := rfl
          rw [List.getElem?_append_right (by omega), hlen,
            show 4 * (i + 1) + k - 4 = 4 * i + k by omega]
          exact ih i (Nat.lt_of_succ_lt_succ hi)

theorem join_wordBytes (w : U32) :
    w.extractLsb' 24 8 ++ w.extractLsb' 16 8 ++ w.extractLsb' 8 8 ++ w.extractLsb' 0 8 = w := by
  rw [BitVec.extractLsb'_append_extractLsb'_eq_extractLsb' (rfl : 24 = 16 + 8),
    BitVec.extractLsb'_append_extractLsb'_eq_extractLsb' (rfl : 16 = 8 + 8),
    BitVec.extractLsb'_append_extractLsb'_eq_extractLsb' (rfl : 8 = 0 + 8)]
  exact BitVec.extractLsb'_eq_self

theorem wordAt_wordBytes (ws : List U32) (rest : List Byte) (behind : Nat → Byte) (i : Nat)
    (h : i < ws.length) :
    wordAt (payloadBytes (ws.flatMap wordBytes ++ rest) behind) i = ws[i] := by
  have hbyte : ∀ k, k < 4 → payloadBytes (ws.flatMap wordBytes ++ rest) behind (4 * i + k) =
      ws[i].extractLsb' (8 * k) 8 := by
    intro k hk
    unfold payloadBytes
    rw [List.getD_eq_getElem?_getD, flatMap_wordBytes_getElem? ws rest i k h hk, Option.getD_some]
  unfold wordAt
  rw [hbyte 3 (by omega), hbyte 2 (by omega), hbyte 1 (by omega), ← Nat.add_zero (4 * i),
    hbyte 0 (by omega)]
  exact join_wordBytes ws[i]

theorem rreq_firstWord (m : RreqHeader) :
    m.firstWord.extractLsb' 24 8 = m.type ∧ m.firstWord.extractLsb' 19 5 = m.flags ∧
      m.firstWord.extractLsb' 8 11 = m.ttl ∧ m.firstWord.extractLsb' 0 8 = m.hopCount := by
  unfold RreqHeader.firstWord
  refine ⟨?_, ?_, ?_, ?_⟩ <;>
    (ext i hi; simp only [BitVec.getElem_extractLsb', BitVec.getLsbD_append]; grind)

theorem rrep_firstWord (m : RrepHeader) :
    m.firstWord.extractLsb' 24 8 = m.type ∧ m.firstWord.extractLsb' 22 2 = m.flags ∧
      m.firstWord.extractLsb' 13 9 = m.reserved ∧ m.firstWord.extractLsb' 8 5 = m.prefixSize ∧
      m.firstWord.extractLsb' 0 8 = m.hopCount := by
  unfold RrepHeader.firstWord
  refine ⟨?_, ?_, ?_, ?_, ?_⟩ <;>
    (ext i hi; simp only [BitVec.getElem_extractLsb', BitVec.getLsbD_append]; grind)

theorem rerr_firstWord (m : RerrHeader) :
    m.firstWord.extractLsb' 24 8 = m.type ∧ m.firstWord.extractLsb' 23 1 = m.n ∧
      m.firstWord.extractLsb' 8 15 = m.reserved ∧ m.firstWord.extractLsb' 0 8 = m.destCount := by
  unfold RerrHeader.firstWord
  refine ⟨?_, ?_, ?_, ?_⟩ <;>
    (ext i hi; simp only [BitVec.getElem_extractLsb', BitVec.getLsbD_append]; grind)

/-- The type is the top byte of the first word. -/
theorem wordAt_type (bytes : Nat → Byte) : (wordAt bytes 0).extractLsb' 24 8 = bytes 3 := by
  unfold wordAt
  ext i hi
  simp only [BitVec.getElem_extractLsb', BitVec.getLsbD_append]
  grind

section ReadBack

variable (behind : Nat → Byte) (bytes : List Byte)

/-- A RREQ is read back from its bytes. -/
theorem readRreq_bytes (m : RreqHeader) (h : (Packet.rreq m).bytes = some bytes) :
    readRreq (payloadBytes bytes behind) = m := by
  simp only [Packet.bytes, Option.some.injEq] at h
  have hword : ∀ i (hi : i < 6), wordAt (payloadBytes bytes behind) i =
      [m.firstWord, m.rreqId, m.destIp, m.destSeq, m.srcIp, m.srcSeq][i] := by
    intro i hi
    rw [← h, ← List.append_nil (List.flatMap _ _)]
    exact wordAt_wordBytes [_, _, _, _, _, _] [] behind i hi
  rcases rreq_firstWord m with ⟨htype, hflags, httl, hhop⟩
  rw [readRreq, hword 0 (by decide), hword 1 (by decide), hword 2 (by decide),
    hword 3 (by decide), hword 4 (by decide), hword 5 (by decide)]
  simp only [List.getElem_cons_zero, List.getElem_cons_succ, htype, hflags, httl, hhop]

/-- A RREP is read back from its bytes, whatever is sent behind it. -/
theorem readRrep_bytes (m : RrepHeader) (beyond : List Byte)
    (h : (Packet.rrep m beyond).bytes = some bytes) :
    readRrep (payloadBytes bytes behind) = m := by
  simp only [Packet.bytes, Option.some.injEq] at h
  have hword : ∀ i (hi : i < 5), wordAt (payloadBytes bytes behind) i =
      [m.firstWord, m.destIp, m.destSeq, m.srcIp, m.lifetime][i] := by
    intro i hi
    rw [← h]
    exact wordAt_wordBytes [_, _, _, _, _] beyond behind i hi
  rcases rrep_firstWord m with ⟨htype, hflags, hreserved, hprefix, hhop⟩
  rw [readRrep, hword 0 (by decide), hword 1 (by decide), hword 2 (by decide),
    hword 3 (by decide), hword 4 (by decide)]
  simp only [List.getElem_cons_zero, List.getElem_cons_succ, htype, hflags, hreserved, hprefix,
    hhop]

/-- The header of a RERR is read back, and the words behind it as far as they go. -/
theorem readRerr_bytes (m : RerrHeader) (words : List U32)
    (h : (Packet.rerr m words).bytes = some bytes) :
    readRerr (payloadBytes bytes behind) = m ∧
      ∀ i (hi : i < words.length), wordAt (payloadBytes bytes behind) (i + 1) = words[i] := by
  simp only [Packet.bytes, Option.some.injEq] at h
  have hword := wordAt_wordBytes (m.firstWord :: words) [] behind
  rw [List.append_nil, h] at hword
  have h0 : wordAt (payloadBytes bytes behind) 0 = m.firstWord := hword 0 (Nat.succ_pos _)
  rcases rerr_firstWord m with ⟨htype, hn, hreserved, hcount⟩
  refine ⟨?_, fun i hi => hword (i + 1) (Nat.succ_lt_succ hi)⟩
  rw [readRerr, h0]
  simp only [htype, hn, hreserved, hcount]

theorem readMessage_rreq (m : RreqHeader) (hm : m.type = rreqType)
    (h : (Packet.rreq m).bytes = some bytes) :
    readMessage (payloadBytes bytes behind) = some (.rreq m) := by
  have hread := readRreq_bytes behind bytes m h
  have h3 : payloadBytes bytes behind 3 = rreqType := by
    rw [← wordAt_type (payloadBytes bytes behind), ← hm, ← hread]
    rfl
  rw [readMessage, if_pos h3, hread]

theorem readMessage_rrep (m : RrepHeader) (beyond : List Byte) (hm : m.type = rrepType)
    (h : (Packet.rrep m beyond).bytes = some bytes) :
    readMessage (payloadBytes bytes behind) = some (.rrep m) := by
  have hread := readRrep_bytes behind bytes m beyond h
  have h3 : payloadBytes bytes behind 3 = rrepType := by
    rw [← wordAt_type (payloadBytes bytes behind), ← hm, ← hread]
    rfl
  rw [readMessage, h3, if_neg (by decide), if_pos rfl, hread]

theorem readMessage_rerr (m : RerrHeader) (words : List U32) (hm : m.type = rerrType)
    (h : (Packet.rerr m words).bytes = some bytes) :
    readMessage (payloadBytes bytes behind) =
      some (.rerr m fun i => wordAt (payloadBytes bytes behind) (i + 1)) := by
  have hread := (readRerr_bytes behind bytes m words h).1
  have h3 : payloadBytes bytes behind 3 = rerrType := by
    rw [← wordAt_type (payloadBytes bytes behind), ← hm, ← hread]
    rfl
  rw [readMessage, h3, if_neg (by decide), if_neg (by decide), if_pos rfl, hread]

end ReadBack

end OpenManet
