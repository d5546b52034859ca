import Mathlib.Data.BitVec
import Mathlib.Data.Fin.Basic

/-!
# Protocol Configuration

The constants of `AODV.h` and the one comparison every handler rests on.

The macros are C `int` expressions, so they are integers here and are turned
into a `uint32_t` only where the source passes them to one. Two of them are not
parenthesised in the source; each use expands to a product or a sum the missing
parentheses do not change, so the values below are the ones the code computes
with.

`seqCompare` is the difference of two sequence numbers as a wrapped signed
32-bit number. The comment above the macro asks for exactly this reading, since
it is what lets a sequence number roll over.

## Main definitions

* `U32`, `Byte`: The fixed-width types of the source.
* `toU32`: The conversion of an `int` to a `uint32_t`.
* `seqCompare`: The signed distance from a stored number to an incoming one.
-/

namespace OpenManet

/-- `uint32_t`: addresses, sequence numbers, hop counts and times in ms. -/
abbrev U32 := BitVec 32

/-- `uint8_t`. -/
abbrev Byte := BitVec 8

/-- The conversion of an `int` value to `uint32_t`. -/
def toU32 (z : Int) : U32 := BitVec.ofInt 32 z

def activeRouteTimeout : Int := 3000
def allowedHelloLoss : Int := 2
def rreqRetries : Nat := 2
def ttlStart : U32 := 1
def ttlIncrement : U32 := 2
def ttlThreshold : U32 := 7
def helloIntervalMs : Int := 1000
def netDiameter : Int := 35
def nodeTraversalTime : Int := 40
def netTraversalTime : Int := 2 * nodeTraversalTime * netDiameter
def deletePeriod : Int := 5 * activeRouteTimeout
def myRouteTimeout : Int := 2 * activeRouteTimeout

/-- The signed 32-bit value of `x - y`, which is how the source orders two
    sequence numbers: negative exactly when `x` is the older one. -/
def seqCompare (x y : U32) : Int := (x - y).toInt

/-- What a callback tells the packet filter to do with the packet. -/
inductive Verdict where
  | packetAccept
  | packetDrop
  deriving DecidableEq, Repr

end OpenManet
