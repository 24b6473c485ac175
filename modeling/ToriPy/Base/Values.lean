import Mathlib

/-!
# Builtin values

The builtin and standard-library values that the packages share: `bytes`, `uuid.UUID` and aware
`datetime`s. A `str` is a `String`, whose `length` is Python's `len` and whose `utf8ByteSize` is the
length of its encoding; an `int` argument that the code validates is an `Int`, an `int` that is
already known to be non-negative is a `Nat`.
-/

namespace ToriPy

/-- A byte string. -/
abbrev Bytes := List UInt8

/-- A 128-bit identifier. -/
abbrev UUID := BitVec 128

/-- An aware `datetime`: microseconds since the epoch, in UTC. -/
abbrev Instant := Int

/-- A positive literal, which carries no proof. -/
instance positiveLiteral (n : Nat) : OfNat ℕ+ (n + 1) := ⟨n.succPNat⟩

end ToriPy
