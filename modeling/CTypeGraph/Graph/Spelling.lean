import CTypeGraph.Graph.Basic

/-!
# Spelling types

Diagnostics name a type by a C-like spelling. Records and enumerations have no
name of their own and are spelled by their handle. A record is never looked
into, which is what keeps the spelling finite: everything else is made from
types that were there before it, so the way down through pointers, arrays and
functions visits ever smaller handles.

The recursion is bounded by a number of steps. `none` means that the steps ran
out and nothing else; a type built in order never needs more steps than its own
position allows, and that is the number `spelling` provides.
-/

namespace CTypeGraph

namespace Graph

/-- The spelling of a type, found in at most `steps` nested steps. -/
def spellingWithin (graph : Graph) (steps : Nat) (type : Handle) : Option String :=
  match steps with
  | 0 => none
  | steps + 1 =>
    match graph.node type with
    | .void => some "void"
    | .basic basic => some basic.spelling
    | .enumeration => some s!"enum <{type}>"
    | .pointer pointee =>
      match graph.node pointee with
      | .record record => some s!"{record.keyword} <{pointee}> *"
      | _ => (graph.spellingWithin steps pointee).map (· ++ " *")
    | .function signature => do
      let parameters ← signature.parameters.mapM fun parameter =>
        graph.spellingWithin steps parameter.type
      let result ← graph.spellingWithin steps signature.result
      let listed := if signature.variadic then parameters ++ ["..."] else parameters
      some ("fn(" ++ ", ".intercalate listed ++ ") -> " ++ result)
    | .record record => some s!"{record.keyword} <{type}>"
    | .array element count =>
      (graph.spellingWithin steps element).map fun spelling => s!"{spelling}[{count}]"

/-- The spelling of a type. The question mark stands for no type: it fills in
for a graph whose types were not built in order. -/
def spelling (graph : Graph) (type : Handle) : String :=
  (graph.spellingWithin (type.index + 1) type).getD "?"

end Graph

end CTypeGraph
