import CTypeGraph.Graph.Category
import CTypeGraph.Graph.Spelling

/-!
# Assigning values

Whether a value of one type may be assigned to an object of another without a
cast. Any two scalars are accepted here. Records are accepted only when they are
the same node; whether two different records are compatible is a question this
library does not answer, and it says so with a fault at the place of the
assignment instead of guessing.
-/

namespace CTypeGraph

namespace Graph

/-- Whether two types are compatible records. Types that are not both records
are not, and a record is compatible with itself. -/
def compatibleRecords (graph : Graph) (left right : Handle) (location : Location) :
    Logged (Except Fault Bool) :=
  if !((graph.node left).isRecord && (graph.node right).isRecord) then .silent (.ok false)
  else if left = right then .silent (.ok true)
  else
    let leftSpelling := graph.spelling left
    let rightSpelling := graph.spelling right
    ⟨.error (.unimplemented (.recordCompatibility leftSpelling rightSpelling) location),
      [.compatibilityUndecided leftSpelling rightSpelling location]⟩

/-- Whether a value of type `source` may be assigned to an object of type `target`. -/
def isAssignable (graph : Graph) (target source : Handle) (location : Location) :
    Logged (Except Fault Bool) :=
  if (graph.node target).isScalar && (graph.node source).isScalar then .silent (.ok true)
  else graph.compatibleRecords target source location

end Graph

end CTypeGraph
