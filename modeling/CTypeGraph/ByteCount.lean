/-!
# Counting bytes in one machine word

Sizes, alignments and offsets are counts of bytes held in a 64-bit word. Growing
a count is never silent about the edge of the word: addition, multiplication and
rounding give their exact answer when that answer fits and `none` when it does
not. The lemmas beside each operation say so through the single view `toNat`,
so that later arguments can be carried out on natural numbers.

The wrapping operations of the word itself stay available. Where one of them is
used, it is the caller's business to know that nothing wraps.
-/

namespace CTypeGraph

/-- A number of bytes: a size, an alignment, or a distance from the start of an object. -/
abbrev ByteCount := UInt64

namespace ByteCount

/-- Checked addition: the exact sum, unless it needs more than one word. -/
def add? (a b : ByteCount) : Option ByteCount :=
  if a.toNat + b.toNat < UInt64.size then some (a + b) else none

/-- Checked multiplication: the exact product, unless it needs more than one word. -/
def mul? (a b : ByteCount) : Option ByteCount :=
  if a.toNat * b.toNat < UInt64.size then some (a * b) else none

/-- The first multiple of `alignment` at or after `offset`, unless it needs more
than one word. An alignment of zero asks for nothing and leaves the offset alone. -/
def roundUp? (offset alignment : ByteCount) : Option ByteCount :=
  if alignment = 0 ∨ offset % alignment = 0 then some offset
  else add? offset (alignment - offset % alignment)

/-- Checked addition answers with a word exactly when that word is the true sum. -/
theorem add?_eq_some_iff {a b c : ByteCount} :
    add? a b = some c ↔ a.toNat + b.toNat = c.toNat := by
  unfold add?
  have bound := c.toNat_lt
  have summed : (a + b).toNat = (a.toNat + b.toNat) % 2 ^ 64 := UInt64.toNat_add a b
  split
  case isTrue fits =>
    have exact : (a + b).toNat = a.toNat + b.toNat := by
      rw [summed]
      exact Nat.mod_eq_of_lt fits
    rw [Option.some.injEq, ← UInt64.toNat_inj, exact]
  case isFalse overflows =>
    simp only [reduceCtorEq, false_iff]
    simp only [UInt64.size] at overflows
    omega

/-- Checked multiplication answers with a word exactly when that word is the true product. -/
theorem mul?_eq_some_iff {a b c : ByteCount} :
    mul? a b = some c ↔ a.toNat * b.toNat = c.toNat := by
  unfold mul?
  have bound := c.toNat_lt
  have multiplied : (a * b).toNat = (a.toNat * b.toNat) % 2 ^ 64 := UInt64.toNat_mul a b
  split
  case isTrue fits =>
    have exact : (a * b).toNat = a.toNat * b.toNat := by
      rw [multiplied]
      exact Nat.mod_eq_of_lt fits
    rw [Option.some.injEq, ← UInt64.toNat_inj, exact]
  case isFalse overflows =>
    simp only [reduceCtorEq, false_iff]
    simp only [UInt64.size] at overflows
    omega

end ByteCount

end CTypeGraph
