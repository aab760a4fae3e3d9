/-!
# Basic arithmetic types

The eight arithmetic kinds that C builds in, each of which may be marked signed
or unsigned. A floating kind may carry the unsigned mark as well; the mark is
kept as part of the type's identity, but it is not spelled.
-/

namespace CTypeGraph

/-- The built-in arithmetic kinds, in order of conversion rank. -/
inductive BasicKind where
  | char
  | short
  | int
  | long
  | longLong
  | float
  | double
  | longDouble
  deriving DecidableEq, Repr

namespace BasicKind

/-- Every kind once, in order of conversion rank. -/
def all : List BasicKind :=
  [.char, .short, .int, .long, .longLong, .float, .double, .longDouble]

/-- The keywords that name the kind in C. -/
def name : BasicKind → String
  | .char => "char"
  | .short => "short"
  | .int => "int"
  | .long => "long"
  | .longLong => "long long"
  | .float => "float"
  | .double => "double"
  | .longDouble => "long double"

/-- The three kinds that hold approximations of real numbers. -/
def isFloating : BasicKind → Bool
  | .float | .double | .longDouble => true
  | .char | .short | .int | .long | .longLong => false

/-- Every kind that is not floating is an integer kind. -/
def isInteger (kind : BasicKind) : Bool :=
  !kind.isFloating

/-- Conversion rank: when two kinds meet in an arithmetic operation, the one of
higher rank wins. -/
def rank : BasicKind → Nat
  | .char => 0
  | .short => 1
  | .int => 2
  | .long => 3
  | .longLong => 4
  | .float => 5
  | .double => 6
  | .longDouble => 7

end BasicKind

/-- A kind together with its signedness. Two basic types are the same type when
both agree. -/
structure BasicType where
  kind : BasicKind
  signed : Bool
  deriving DecidableEq, Repr

/-- The C spelling. Signedness shows only on an unsigned integer kind. -/
def BasicType.spelling (type : BasicType) : String :=
  if type.signed || type.kind.isFloating then type.kind.name
  else "unsigned " ++ type.kind.name

end CTypeGraph
