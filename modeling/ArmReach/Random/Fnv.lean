/-!
# FNV-1a

The 64-bit FNV-1a hash: starting from the offset basis, each byte is XORed in and the state
multiplied by the FNV prime, mod `2 ^ 64`. `fnv1a64Words` hashes 64-bit words given as their
eight little-endian bytes each.
-/

namespace ArmReach

namespace Random

/-- The 64-bit FNV offset basis. -/
def fnvOffset : UInt64 := 14695981039346656037

/-- The 64-bit FNV prime. -/
def fnvPrime : UInt64 := 1099511628211

/-- One byte into the hash. -/
def fnvByte (h : UInt64) (b : UInt64) : UInt64 := (h ^^^ b) * fnvPrime

/-- The little-endian bytes of a word, least significant first. -/
def littleEndianBytes (w : UInt64) : List UInt64 :=
  (List.range 8).map fun i => (w >>> (8 * i).toUInt64) &&& 0xff

/-- FNV-1a of the little-endian bytes of the words, in order. -/
def fnv1a64Words (ws : List UInt64) : UInt64 :=
  (ws.flatMap littleEndianBytes).foldl fnvByte fnvOffset

end Random

end ArmReach
