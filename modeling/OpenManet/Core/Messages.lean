import OpenManet.Core.Time

/-!
# Message Formats

The three message formats of `rreq.h`, `rrep.h` and `rerr.h`, the functions
that build them, and the memory they are built in.

A header is a record of bit fields of the source's own widths. Its bytes are
those of the little-endian layout: the first word holds the type in its top
byte and the hop or destination count in its bottom one.

`malloc` hands out memory with arbitrary contents, and two of the buffers are
sent with a length that runs past their end. `Memory` gives the bytes of every
block one execution allocates, those behind the block included, so a read of a
byte nobody wrote is a read of `Memory` and nothing else is. The generator of a
RREP never assigns `prefixSize`; a RERR is copied from an array of words that is
itself freshly allocated.

## Main definitions

* `RreqHeader`, `RrepHeader`, `RerrHeader`: The three headers.
* `Memory`: What the blocks allocated in one execution contain.
* `generateRreqMessage`, `generateRrepMessage`, `generateRerrMessage`,
  `generateRerrMessageBuff`: The generators.
* `Packet`: What is handed to `SendUnicast` and `SendBroadcast`.
* `Packet.bytes`, `Packet.length`: The bytes of a packet and the length of its send.
-/

namespace OpenManet

def rreqType : Byte := 1
def rrepType : Byte := 2
def rerrType : Byte := 3

def rreqGrat : BitVec 5 := 0b00100
def rreqDestOnly : BitVec 5 := 0b00010
def rreqUnknown : BitVec 5 := 0b00001

/-- `rreq_header`. The TTL repurposes the reserved bits of the format. -/
structure RreqHeader where
  type : Byte
  flags : BitVec 5
  ttl : BitVec 11
  hopCount : Byte
  rreqId : U32
  destIp : U32
  destSeq : U32
  srcIp : U32
  srcSeq : U32
  deriving DecidableEq, Repr

/-- `rrep_header`. A hello is a RREP whose `srcIp` is zero. -/
structure RrepHeader where
  type : Byte
  flags : BitVec 2
  reserved : BitVec 9
  prefixSize : BitVec 5
  hopCount : Byte
  destIp : U32
  destSeq : U32
  srcIp : U32
  lifetime : U32
  deriving DecidableEq, Repr

/-- `rerr_header`. The pairs of addresses and sequence numbers follow it. -/
structure RerrHeader where
  type : Byte
  n : BitVec 1
  reserved : BitVec 15
  destCount : Byte
  deriving DecidableEq, Repr

/-- The allocations one execution of a handler can make and whose contents it
    can come to depend on. -/
inductive Block where
  /-- The routing entry created for an address. -/
  | entry (ip : U32)
  /-- The RREP built as an answer. -/
  | rrep
  /-- The gratuitous RREP built beside it. -/
  | gratuitousRrep
  /-- The array of pairs a RERR is assembled in. -/
  | rerrPairs
  /-- The RERR itself. -/
  | rerr
  /-- Where the packet filter put a received message. -/
  | payload
  deriving DecidableEq, Repr

/-- The bytes found in each block before anything is written to it, at offsets
    inside the block and behind it. -/
abbrev Memory := Block → Nat → Byte

/-- The word at word offset `i` of a block, little-endian. -/
def wordAt (bytes : Nat → Byte) (i : Nat) : U32 :=
  bytes (4 * i + 3) ++ bytes (4 * i + 2) ++ bytes (4 * i + 1) ++ bytes (4 * i)

/-- What a handler takes from its surroundings: the clock and the memory. -/
structure Env where
  now : Timespec
  memory : Memory

/-- A flag argument is a byte; the bit field keeps the bits it has room for. -/
def generateRreqMessage (flags : Byte) (rreqId destIp destSeq originIp originSeq : U32) :
    RreqHeader :=
  { type := rreqType, flags := flags.setWidth 5, ttl := 0, hopCount := 0, rreqId := rreqId
    destIp := destIp, destSeq := destSeq, srcIp := originIp, srcSeq := originSeq }

/-- The prefix size is the one field no statement assigns; it keeps the low five
    bits of the second byte of the block. -/
def generateRrepMessage (block : Nat → Byte) (flags : Byte)
    (destIp destSeq originIp lifeTime : U32) : RrepHeader :=
  { type := rrepType, flags := flags.setWidth 2, reserved := 0
    prefixSize := (block 1).setWidth 5, hopCount := 0, destIp := destIp,
    destSeq := destSeq, srcIp := originIp
    lifetime := lifeTime }

def rerrHeader (n numberDests : Byte) : RerrHeader :=
  { type := rerrType, n := n.setWidth 1, reserved := 0, destCount := numberDests }

/-- The variadic generator: the pairs come as arguments. -/
def generateRerrMessage (n numberDests : Byte) (dests : List U32) :
    Option (RerrHeader × List U32) :=
  if numberDests = 0 then none
  else some (rerrHeader n numberDests, dests.take (2 * numberDests.toNat))

/-- The buffer generator: the first `2 * numberDests` words are copied from the
    array of pairs. -/
def generateRerrMessageBuff (n numberDests : Byte) (destIpSeqPairs : Nat → U32) :
    Option (RerrHeader × List U32) :=
  if numberDests = 0 then none
  else some (rerrHeader n numberDests, (List.range (2 * numberDests.toNat)).map destIpSeqPairs)

def incrementHopRreq (m : RreqHeader) : RreqHeader := { m with hopCount := m.hopCount + 1 }

def incrementHopRrep (m : RrepHeader) : RrepHeader := { m with hopCount := m.hopCount + 1 }

/-- What is handed to `SendUnicast` and `SendBroadcast`. A RREP is followed by
    the bytes the send length covers beyond its header, a RERR by its words. -/
inductive Packet where
  | rreq (m : RreqHeader)
  | rrep (m : RrepHeader) (beyond : List Byte)
  | rerr (m : RerrHeader) (words : List U32)
  /-- A send of so many bytes from a NULL pointer. -/
  | null (length : Nat)
  /-- The textual timing report `send_rreq` sends to its own address. -/
  | timing
  deriving DecidableEq, Repr

/-- The four bytes of a word in memory order. -/
def wordBytes (w : U32) : List Byte :=
  [w.extractLsb' 0 8, w.extractLsb' 8 8, w.extractLsb' 16 8, w.extractLsb' 24 8]

def RreqHeader.firstWord (m : RreqHeader) : U32 := m.type ++ m.flags ++ m.ttl ++ m.hopCount

def RrepHeader.firstWord (m : RrepHeader) : U32 :=
  m.type ++ m.flags ++ m.reserved ++ m.prefixSize ++ m.hopCount

def RerrHeader.firstWord (m : RerrHeader) : U32 := m.type ++ m.n ++ m.reserved ++ m.destCount

/-- The bytes of a packet that carries a message of the protocol, or nothing
    when it carries none. -/
def Packet.bytes : Packet → Option (List Byte)
  | .rreq m => some <|
      [m.firstWord, m.rreqId, m.destIp, m.destSeq, m.srcIp, m.srcSeq].flatMap wordBytes
  | .rrep m beyond => some <|
      [m.firstWord, m.destIp, m.destSeq, m.srcIp, m.lifetime].flatMap wordBytes ++ beyond
  | .rerr m words => some <| (m.firstWord :: words).flatMap wordBytes
  | .null _ => none
  | .timing => none

/-- The length a packet is sent with. -/
def Packet.length : Packet → Nat
  | rreq _ => 24
  | rrep _ beyond => 20 + beyond.length
  | rerr _ words => 4 + 4 * words.length
  | null length => length
  | timing => 80

theorem flatMap_wordBytes_length (ws : List U32) :
    (ws.flatMap wordBytes).length = 4 * ws.length := by
  induction ws with
  | nil => rfl
  | cons w ws ih =>
      rw [List.flatMap_cons, List.length_append, ih, List.length_cons]
      show 4 + 4 * ws.length = 4 * (ws.length + 1)
      omega

/-- A send covers the bytes of its packet. -/
theorem Packet.bytes_length (p : Packet) (bytes : List Byte) (h : p.bytes = some bytes) :
    bytes.length = p.length := by
  cases p with
  | rreq m =>
      simp only [Packet.bytes, Option.some.injEq] at h
      rw [← h, flatMap_wordBytes_length]
      rfl
  | rrep m beyond =>
      simp only [Packet.bytes, Option.some.injEq] at h
      rw [← h, List.length_append, flatMap_wordBytes_length]
      rfl
  | rerr m words =>
      simp only [Packet.bytes, Option.some.injEq] at h
      rw [← h, flatMap_wordBytes_length, List.length_cons]
      show 4 * (words.length + 1) = 4 + 4 * words.length
      omega
  | null length => simp only [Packet.bytes, reduceCtorEq] at h
  | timing => simp only [Packet.bytes, reduceCtorEq] at h

end OpenManet
