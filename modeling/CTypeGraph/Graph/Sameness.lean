import CTypeGraph.Graph.Basic

/-!
# When two types are the same

Types are compared by structure. All enumerations are the same, arrays are the
same when their counts agree whatever their elements are, and the names of
members and parameters are ignored. A record that is still being built is the
same as another such record and different from every finished one.

Structure alone would run in circles, since a record may hold a pointer to
itself. Once the members of two records are being compared, a pointer to a
record is therefore no longer followed: two such pointers are the same when they
point at the same record or when both records are incomplete. The answer for a
pointer thus depends on where it is met. `X *` and `Y *` may be the same type
while two records that differ in holding one or the other are not.

What is done with two nodes is said once, in `compareNodes`, for any function that
answers the questions about the types they lead to. The comparison asks itself. It
is bounded by a number of steps, and `none` means that the steps ran out. A
comparison that comes to an end never meets the same pair of types twice on its
way down under the same rule for pointers, so `sameType` provides one step for
every pair under either rule, with some to spare.

Not every comparison comes to an end. A pointer to a function is followed among
members too, and a function may give a record by value, so that the way down may
come back to the pair it began with.
-/

namespace CTypeGraph

/-- What is done with a pair of pointers to records. -/
inductive RecordPointers where
  /-- Compare what they point at. -/
  | followed
  /-- Compare where they point. -/
  | identified
  deriving DecidableEq, Repr

namespace Graph

/-- What is done with the pointees of two pointers, where `ask` answers the question whether
types are the same: records stay where they are, if that is the rule, and everything else is
followed. -/
def comparePointees (graph : Graph) (ask : RecordPointers → Handle → Handle → Option Bool)
    (rule : RecordPointers) (left right : Handle) : Option Bool :=
  match rule, graph.node left, graph.node right with
  | .identified, .record leftRecord, .record rightRecord =>
    some (decide (left = right) || (leftRecord.incomplete && rightRecord.incomplete))
  | _, _, _ => ask rule left right

/-- What is done with two functions: first the results, then the parameters, if there are equally
many. -/
def compareSignatures (ask : Handle → Handle → Option Bool) (left right : Signature) :
    Option Bool :=
  (ask left.result right.result).bind fun sameResult =>
    if sameResult && left.variadic == right.variadic &&
        left.parameters.length == right.parameters.length then
      (left.parameters.zip right.parameters).allM fun pair => ask pair.1.type pair.2.type
    else some false

/-- What is done with two records: while one of them is incomplete nothing else counts, and
otherwise the members do, if there are equally many. -/
def compareRecords (ask : Handle → Handle → Option Bool) (left right : Record) : Option Bool :=
  if left.incomplete || right.incomplete then some (left.incomplete == right.incomplete)
  else if left.members.length == right.members.length then
    (left.members.zip right.members).allM fun pair => ask pair.1.type pair.2.type
  else some false

/-- What one step of a comparison does with the two nodes. The handles themselves are not
compared. -/
def compareNodes (graph : Graph) (ask : RecordPointers → Handle → Handle → Option Bool)
    (rule : RecordPointers) (left right : Handle) : Option Bool :=
  match graph.node left, graph.node right with
  | .void, .void => some true
  | .enumeration, .enumeration => some true
  | .basic leftBasic, .basic rightBasic => some (decide (leftBasic = rightBasic))
  | .pointer leftPointee, .pointer rightPointee =>
    graph.comparePointees ask rule leftPointee rightPointee
  | .function leftSignature, .function rightSignature =>
    compareSignatures (ask rule) leftSignature rightSignature
  | .record leftRecord, .record rightRecord =>
    compareRecords (ask .identified) leftRecord rightRecord
  | .array _ leftCount, .array _ rightCount => some (leftCount == rightCount)
  | _, _ => some false

/-- Whether two types are the same, found in at most `steps` nested steps. -/
def sameWithin (graph : Graph) (steps : Nat) (rule : RecordPointers) (left right : Handle) :
    Option Bool :=
  match steps with
  | 0 => none
  | steps + 1 =>
    if left = right then some true
    else graph.compareNodes (graph.sameWithin steps) rule left right

/-- A number of nested steps that suffices for every comparison which ends:
more than there are pairs of types, counted once for either rule. -/
def comparisonSteps (graph : Graph) : Nat :=
  2 * (graph.size + 1) * (graph.size + 1)

/-- Whether two types are the same. The answer `false` has two readings here: the comparison says
no, or it goes on forever, and then a program that asks gets no answer at all. `sameWithin` tells
the two apart, being `some false` for the first and `none`, with any number of steps, for the
second. The answer `true` is given only by a comparison that ends. -/
def sameType (graph : Graph) (left right : Handle) : Bool :=
  (graph.sameWithin graph.comparisonSteps .followed left right).getD false

end Graph

end CTypeGraph
