import CTypeGraph.BasicType
import CTypeGraph.ByteCount

/-!
# Data models

A data model fixes how many bytes each scalar type takes and on which boundary
it must start. Layout reads both numbers; the ranges of the integer types follow
from the sizes alone. Nothing is assumed about the numbers: an alignment may be
zero or not a power of two, and a size need not be a multiple of its alignment.

An integer is never wider than eight bytes, so a larger stated size widens the
object but not the range of values it holds.
-/

namespace CTypeGraph

/-- The bytes a scalar occupies and the boundary on which it starts. -/
structure Extent where
  size : ByteCount
  align : ByteCount
  deriving DecidableEq, Repr

/-- A scalar that starts on a multiple of its own size. -/
def Extent.natural (size : ByteCount) : Extent :=
  ⟨size, size⟩

/-- The extents of all scalar types of one machine. Enumerations are stored as `int`. -/
structure DataModel where
  char : Extent
  short : Extent
  int : Extent
  long : Extent
  longLong : Extent
  float : Extent
  double : Extent
  longDouble : Extent
  pointer : Extent
  deriving DecidableEq, Repr

/-- A closed interval of integers, given by its two ends. -/
structure IntegerRange where
  least : Int
  greatest : Int
  deriving DecidableEq, Repr

/-- One range covers another when both ends of the other lie between its own. -/
def IntegerRange.covers (outer inner : IntegerRange) : Bool :=
  decide (outer.least ≤ inner.least ∧ inner.greatest ≤ outer.greatest)

namespace DataModel

/-- Longs and pointers of 64 bits, everything on its natural boundary. -/
def lp64 : DataModel where
  char := .natural 1
  short := .natural 2
  int := .natural 4
  long := .natural 8
  longLong := .natural 8
  float := .natural 4
  double := .natural 8
  longDouble := .natural 16
  pointer := .natural 8

/-- Integers, longs and pointers of 32 bits, no boundary wider than four bytes. -/
def ilp32 : DataModel where
  char := .natural 1
  short := .natural 2
  int := .natural 4
  long := .natural 4
  longLong := ⟨8, 4⟩
  float := .natural 4
  double := ⟨8, 4⟩
  longDouble := ⟨12, 4⟩
  pointer := .natural 4

/-- Where nothing else is said, types are measured by `lp64`. -/
instance : Inhabited DataModel := ⟨lp64⟩

/-- The extent of a basic kind. Signedness makes no difference to it. -/
def basic (model : DataModel) : BasicKind → Extent
  | .char => model.char
  | .short => model.short
  | .int => model.int
  | .long => model.long
  | .longLong => model.longLong
  | .float => model.float
  | .double => model.double
  | .longDouble => model.longDouble

/-- The number of value bits of a kind, counting a sign bit: eight for each of
at most eight bytes. -/
def valueBits (model : DataModel) (kind : BasicKind) : Nat :=
  min (model.basic kind).size.toNat 8 * 8

/-- The values of an integer type of this kind, in two's complement when signed. Only the byte
size is read. A kind of no bytes has no values, and the question is not meant for it. That a
signed one gets the range from -1 to 0 is a convention of subtraction on naturals, where one sign
bit taken from none leaves none; in arithmetic of words the same subtraction underflows, and there
is no answer to compare this one with. What is proved about values of integers therefore supposes
that there is a byte, or holds whatever the range is. -/
def integerRange (model : DataModel) (type : BasicType) : IntegerRange :=
  let bits := model.valueBits type.kind
  if type.signed then ⟨-Int.pow 2 (bits - 1), Int.pow 2 (bits - 1) - 1⟩
  else ⟨0, Int.pow 2 bits - 1⟩

end DataModel

end CTypeGraph
