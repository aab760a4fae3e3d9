import CTypeGraph.Proofs.Acceptance
import CTypeGraph.Proofs.Stability

/-!
# Questions about one type come to an end

The size of a type, its alignment and its spelling are found by recursion over its parts, and
the parts of a type may lead back to it: a struct may hold pointers to itself, functions that
take it or give it, and, as long as it is under construction, itself and arrays of itself. No
such way is ever taken to its end. Sizes and alignments go from an array to its element and read
off everything else. Spellings go on from pointers, arrays and functions, and stop at records
and before them. So every step goes to a type that was there earlier, and that is a property of
graphs that were built in order and not of nodes.

The number of steps that a recursion is given plays no part in this, as long as it is beyond
the position of the type. Then the answer is found and is always the same one. In particular no
fault shows a question mark where the spelling of a type should stand.
-/

namespace CTypeGraph

/-- Traversing a list succeeds when it does on every entry. -/
theorem mapM_isSome {α β : Type} {question : α → Option β} {entries : List α}
    (answered : ∀ entry ∈ entries, (question entry).isSome) :
    (entries.mapM question).isSome := by
  induction entries with
  | nil => rfl
  | cons entry rest inductionHypothesis =>
    obtain ⟨head, others⟩ := List.forall_mem_cons.mp answered
    obtain ⟨answer, found⟩ := Option.isSome_iff_exists.mp head
    obtain ⟨answers, foundRest⟩ := Option.isSome_iff_exists.mp (inductionHypothesis others)
    rw [List.mapM_cons, found, foundRest]
    rfl

/-- When any two numbers of steps beyond a place give the same answer, and there is one, it is
the answer that the first such number gives. -/
theorem eq_some_getD_of_agree {α : Type} {answer : Nat → Option α} {place : Nat}
    (agree : ∀ {steps more}, place < steps → place < more → answer steps = answer more)
    (found : ∀ {steps}, place < steps → (answer steps).isSome) {steps : Nat}
    (enough : place < steps) (otherwise : α) :
    answer steps = some ((answer (place + 1)).getD otherwise) := by
  have first : place < place + 1 := Nat.lt_succ_self place
  obtain ⟨value, given⟩ := Option.isSome_iff_exists.mp (found first)
  rw [agree enough first, given, Option.getD_some]

namespace Graph

variable {graph : Graph} {type : Handle}

/-- A relation that leads from types to earlier ones is well founded. -/
theorem wellFounded_of_earlier {leads : Handle → Handle → Prop}
    (earlier : ∀ {type next}, leads type next → next.index < type.index) :
    WellFounded fun next type => leads type next :=
  Subrelation.wf earlier (InvImage.wf Handle.index Nat.lt_wfRel.wf)

/-- A type is spelled in a step more than its parts. -/
theorem spellingWithin_succ_isSome {steps : Nat}
    (found : ∀ part ∈ graph.spelledParts type, (graph.spellingWithin steps part).isSome) :
    (graph.spellingWithin (steps + 1) type).isSome := by
  unfold spelledParts at found
  unfold spellingWithin
  cases there : graph.node type with
  | void | basic | enumeration | record => rfl
  | pointer pointee =>
    simp only [there] at found ⊢
    -- In front of a record the spelling stops, so that nothing has to be found there.
    cases target : graph.node pointee with
    | record => rfl
    | void | basic | enumeration | pointer | function | array =>
      simp only [target, Node.isRecord] at found
      simp only [Option.isSome_map]
      exact found pointee (List.mem_singleton_self pointee)
  | function signature =>
    simp only [there] at found
    have parameters : (signature.parameters.mapM fun parameter =>
        graph.spellingWithin steps parameter.type).isSome := by
      apply mapM_isSome
      intro parameter within
      exact found parameter.type (List.mem_cons_of_mem _ (List.mem_map_of_mem within))
    obtain ⟨listed, foundParameters⟩ := Option.isSome_iff_exists.mp parameters
    obtain ⟨result, foundResult⟩ :=
      Option.isSome_iff_exists.mp (found signature.result List.mem_cons_self)
    simp only [foundParameters, foundResult]
    rfl
  | array element count =>
    simp only [there] at found
    simp only [Option.isSome_map]
    exact found element (List.mem_singleton_self element)

namespace Ordered

/-- What a spelling is made from came before the type. -/
theorem spelledParts_earlier (ordered : graph.Ordered) {part : Handle}
    (within : part ∈ graph.spelledParts type) : part.index < type.index := by
  apply ordered.earlier
  · -- The parts of a record may be later, but none of them is spelled.
    intro contents there
    rw [spelledParts, there] at within
    cases within
  · exact graph.spelledParts_subset type within

/-- Two numbers of steps beyond the position of a type find the same spelling. -/
theorem spellingWithin_agree (ordered : graph.Ordered) {steps more : Nat}
    (enough : type.index < steps) (beyond : type.index < more) :
    graph.spellingWithin steps type = graph.spellingWithin more type := by
  induction steps generalizing more type with
  | zero => exact absurd enough (Nat.not_lt_zero _)
  | succ steps inductionHypothesis =>
    cases more with
    | zero => exact absurd beyond (Nat.not_lt_zero _)
    | succ more =>
      apply spellingWithin_succ_congr (.same _) fun _ _ => .same _
      intro part within
      have before : part.index < type.index := ordered.spelledParts_earlier within
      exact inductionHypothesis (by omega) (by omega)

/-- With the steps that its position allows the spelling of a type is found. -/
theorem spellingWithin_isSome (ordered : graph.Ordered) {steps : Nat}
    (enough : type.index < steps) : (graph.spellingWithin steps type).isSome := by
  induction steps generalizing type with
  | zero => exact absurd enough (Nat.not_lt_zero _)
  | succ steps inductionHypothesis =>
    apply spellingWithin_succ_isSome
    intro part within
    have before : part.index < type.index := ordered.spelledParts_earlier within
    exact inductionHypothesis (by omega)

/-- The spelling of a type is what every number of steps beyond its position finds. -/
theorem spellingWithin_eq_some (ordered : graph.Ordered) {steps : Nat}
    (enough : type.index < steps) :
    graph.spellingWithin steps type = some (graph.spelling type) :=
  eq_some_getD_of_agree ordered.spellingWithin_agree ordered.spellingWithin_isSome enough _

/-- So is its size, or the reason why it has none. -/
theorem byteSizeWithin_eq_some (ordered : graph.Ordered) {steps : Nat}
    (enough : type.index < steps) :
    graph.byteSizeWithin steps type = some (graph.byteSize type) :=
  eq_some_getD_of_agree ordered.byteSizeWithin_agree ordered.byteSizeWithin_isSome enough _

/-- So is its alignment, or the reason why it has none. -/
theorem byteAlignWithin_eq_some (ordered : graph.Ordered) {steps : Nat}
    (enough : type.index < steps) :
    graph.byteAlignWithin steps type = some (graph.byteAlign type) :=
  eq_some_getD_of_agree ordered.byteAlignWithin_agree ordered.byteAlignWithin_isSome enough _

end Ordered

/-- In a reachable graph the recursions over the element of an array and over what a spelling is
made from are well founded, whatever leads back to what. The size, the alignment and the spelling
of every type are found with every number of steps beyond its position, and are the ones that are
given. And whatever is asked of the graph, a fault that shows types shows spellings that have been
found. -/
theorem Reachable.questions_end (reachable : graph.Reachable) :
    ((WellFounded fun element type => graph.HasElement type element) ∧
      WellFounded fun part type => part ∈ graph.spelledParts type) ∧
      (∀ (type : Handle) (steps : Nat), type.index < steps →
        graph.byteSizeWithin steps type = some (graph.byteSize type) ∧
          graph.byteAlignWithin steps type = some (graph.byteAlign type) ∧
          graph.spellingWithin steps type = some (graph.spelling type)) ∧
      ∀ fault, graph.Reports fault → ∀ text ∈ fault.spellings, Shows fault.message text ∧
        ∃ type : Handle, ∀ steps, type.index < steps →
          graph.spellingWithin steps type = some text := by
  have ordered : graph.Ordered := reachable.ordered
  refine ⟨⟨?elements, ?parts⟩, ?found, ?shown⟩
  case elements =>
    apply wellFounded_of_earlier
    rintro type element ⟨count, there⟩
    exact ordered.element_earlier there
  case parts => exact wellFounded_of_earlier fun within => ordered.spelledParts_earlier within
  case found =>
    exact fun type steps enough => ⟨ordered.byteSizeWithin_eq_some enough,
      ordered.byteAlignWithin_eq_some enough, ordered.spellingWithin_eq_some enough⟩
  case shown =>
    intro fault reports text within
    obtain ⟨type, rfl⟩ := reports.spells text within
    exact ⟨fault.message_shows within, type, fun _ => ordered.spellingWithin_eq_some⟩

end Graph

/-! ## Types that lead back to themselves -/

/-- The types are, in order: a struct and the pointer to it, a function that takes the pointer and
gives the struct, and the pointer to it; a second struct, the array of three of it and the array
of two of those, with the pointer to it; a function that takes that pointer and the second struct
and gives a pointer to the first function; and the pointer to the second struct. The first struct
holds pointers to both structs and to the function. The second one holds a pointer to the first,
itself, and an array of itself, so that it cannot be finalized. -/
def knottedGraph : Graph :=
  (Graph.empty .lp64).after
    [.makeRecord false, .internPointer ⟨0⟩, .makeFunction ⟨⟨0⟩, [⟨none, ⟨1⟩⟩], false⟩,
      .internPointer ⟨2⟩, .makeRecord false, .makeArray ⟨4⟩ 3, .makeArray ⟨5⟩ 2,
      .internPointer ⟨6⟩, .makeFunction ⟨⟨3⟩, [⟨none, ⟨7⟩⟩, ⟨some "whole", ⟨4⟩⟩], true⟩,
      .internPointer ⟨4⟩,
      .addMember ⟨0⟩ (some "next") ⟨1⟩ default, .addMember ⟨0⟩ (some "copy") ⟨3⟩ default,
      .addMember ⟨0⟩ (some "peer") ⟨9⟩ default, .finalize ⟨0⟩,
      .addMember ⟨4⟩ (some "peer") ⟨1⟩ default, .addMember ⟨4⟩ (some "self") ⟨4⟩ default,
      .addMember ⟨4⟩ (some "rows") ⟨6⟩ default]

/-- The struct that leads back to itself through pointers and a function has a size. The array of
arrays of the struct that holds it is refused, in words that show the struct. And the second
function is spelled with both structs in it. -/
theorem knotted_questions_end :
    knottedGraph.Reachable ∧ knottedGraph.byteSizeWithin 100 ⟨0⟩ = some (.ok 24) ∧
      knottedGraph.byteAlignWithin 100 ⟨6⟩ =
        some (.error (.internal (.stillBuilding "struct <#4>"))) ∧
      knottedGraph.spellingWithin 100 ⟨8⟩ =
        some ("fn(struct <#4>[3][2] *, struct <#4>, ...) -> fn(struct <#0> *) -> struct <#0> *") ∧
      ∃ type : Handle, ∀ steps, type.index < steps →
        knottedGraph.spellingWithin steps type = some "struct <#4>" := by
  have reachable : knottedGraph.Reachable := ⟨.lp64, Graph.evolves_after (by decide +kernel)⟩
  obtain ⟨_, found, shown⟩ := reachable.questions_end
  have refused : knottedGraph.byteAlign ⟨6⟩ =
      .error (.internal (.stillBuilding "struct <#4>")) := by
    decide +kernel
  refine ⟨reachable, ?_, ?_, ?_, ?_⟩
  · rw [(found ⟨0⟩ 100 (by decide)).1]
    decide +kernel
  · rw [(found ⟨6⟩ 100 (by decide)).2.1, refused]
  · rw [(found ⟨8⟩ 100 (by decide)).2.2]
    decide +kernel
  · exact (shown _ (.byteAlign refused) "struct <#4>" (List.mem_singleton_self _)).2

/-- It is the order of construction that brings the end. An array that is its own element, which
no history makes, has no spelling. -/
example : Graph.spelling { Graph.empty .lp64 with nodes := #[.array ⟨0⟩ 1] } ⟨0⟩ = "?" := by
  decide +kernel

end CTypeGraph
