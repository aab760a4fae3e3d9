/-!
# Places in a source text

A fault that the user can act on is reported against a line and a column. A
location that was never set is line zero, column zero.
-/

namespace CTypeGraph

/-- A line and a column of the source text. -/
structure Location where
  line : Nat
  column : Nat
  deriving DecidableEq, Repr

namespace Location

/-- The location that was never set. -/
instance : Inhabited Location := ⟨⟨0, 0⟩⟩

/-- Line and column in decimal, with a colon between them. -/
def text (location : Location) : String :=
  toString location.line ++ ":" ++ toString location.column

/-- A location is written by its text. -/
instance : ToString Location := ⟨text⟩

end Location

end CTypeGraph
