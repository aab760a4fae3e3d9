import CTypeGraph.Graph.Assignment
import CTypeGraph.Graph.Conversion
import CTypeGraph.Proofs.ExactLayout

/-!
# Answers that stand

An answer that has been given about a type is not taken back by what happens to the
graph afterwards. There are two reasons for it. Questions about layouts and fields are
answered from nodes that have settled, or else they are refused, and a refusal may
become an answer later. All other questions are answered, or refused, from what a type
looks like from outside: they may name a record under construction, or a pointer to it,
but they do not look into it. From outside such a record looks the same throughout its
life, since a struct is never turned into a union or into anything else.

`Node.Alike` is that outside view. One operation keeps it for every type that there is,
and so does a history. `StandsBy` collects what follows for the answers of a graph.
-/

namespace CTypeGraph

/-- Traversing a list in two ways that agree on its entries gives the same result. -/
theorem mapM_congr {α β : Type} {one other : α → Option β} {entries : List α}
    (agree : ∀ entry ∈ entries, one entry = other entry) :
    entries.mapM one = entries.mapM other := by
  induction entries with
  | nil => rfl
  | cons entry rest inductionHypothesis =>
    obtain ⟨head, others⟩ := List.forall_mem_cons.mp agree
    rw [List.mapM_cons, List.mapM_cons, head, inductionHypothesis others]

/-- Two nodes that look the same from outside: they are equal, or they are both structs
or both unions, whatever is in them. -/
inductive Node.Alike : Node → Node → Prop
  | same (node : Node) : Alike node node
  | records {one other : Record} (kind : one.isUnion = other.isUnion) :
      Alike (.record one) (.record other)

namespace Node.Alike

/-- What looks like a node that looks like a third looks like the third. -/
theorem trans {first second third : Node} (early : Alike first second)
    (late : Alike second third) : Alike first third := by
  cases early with
  | same => exact late
  | records kind =>
    cases late with
    | same => exact .records kind
    | records kind' => exact .records (kind.trans kind')

/-- Nodes that look alike give the same answer to a question that does not look into
records, though it may tell structs from unions. -/
theorem answer_eq {α : Type} {one other : Node} (alike : Alike one other) (question : Node → α)
    (shallow : ∀ {left right : Record}, left.isUnion = right.isUnion →
      question (.record left) = question (.record right)) :
    question one = question other := by
  cases alike with
  | same => rfl
  | records kind => exact shallow kind

end Node.Alike

namespace Graph

variable {graph after : Graph} {type : Handle}

/-- No effect changes the look of a type that there is. A record that receives a member
or its layout remains what it is. -/
theorem Effect.alike (effect : Effect graph after) (present : type.index < graph.size) :
    (graph.node type).Alike (after.node type) := by
  have fate : Fate graph type (after.node type) :=
    effect.fate (Nat.lt_of_lt_of_le present effect.size_le)
  generalize after.node type = node at fate
  cases fate with
  | kept => exact .same _
  | made last => exact absurd last (Nat.ne_of_lt present)
  | opened last => exact absurd last (Nat.ne_of_lt present)
  | extended there =>
    rw [there]
    exact .records rfl
  | finalized laid =>
    obtain ⟨draft, _, there, _, _, settles⟩ := layoutOf_eq_ok_iff_settles.mp laid
    rw [there]
    exact .records settles.isUnion.symm

/-- The types that the spelling of a type is made from. A record is not looked into, neither for
its own spelling nor for that of a pointer to it. -/
def spelledParts (graph : Graph) (type : Handle) : List Handle :=
  match graph.node type with
  | .pointer pointee => if (graph.node pointee).isRecord then [] else [pointee]
  | .function signature => signature.result :: signature.parameters.map (·.type)
  | .array element _ => [element]
  | .void | .basic _ | .enumeration | .record _ => []

/-- What a spelling is made from is a part of the type. -/
theorem spelledParts_subset (graph : Graph) (type : Handle) :
    graph.spelledParts type ⊆ (graph.node type).parts := by
  unfold spelledParts
  cases graph.node type with
  | pointer pointee =>
    simp only [Node.parts]
    split
    case isTrue => exact List.nil_subset _
    case isFalse => exact List.Subset.refl _
  | void | basic | enumeration | function | record | array => simp [Node.parts]

/-- Two types that look alike are spelled the same, provided that their parts look alike and
those that are spelled are spelled the same, in a step less. The pointer to a record and the
record itself show a handle and a keyword. -/
theorem spellingWithin_succ_congr {steps more : Nat}
    (alike : (graph.node type).Alike (after.node type))
    (looks : ∀ part ∈ (graph.node type).parts, (graph.node part).Alike (after.node part))
    (spelled : ∀ part ∈ graph.spelledParts type,
      after.spellingWithin more part = graph.spellingWithin steps part) :
    after.spellingWithin (more + 1) type = graph.spellingWithin (steps + 1) type := by
  unfold spelledParts at spelled
  unfold spellingWithin
  generalize graph.node type = node at alike looks spelled ⊢
  generalize after.node type = later at alike ⊢
  cases alike with
  | records kind => simp only [Record.keyword, kind]
  | same =>
    cases node with
    | void | basic | enumeration | record => rfl
    | pointer pointee =>
      have alikePointee := looks pointee (by simp [Node.parts])
      simp only at spelled ⊢
      generalize graph.node pointee = target at alikePointee spelled ⊢
      generalize after.node pointee = target' at alikePointee ⊢
      -- A record in front of which the spelling stops may have changed, but not its keyword.
      cases alikePointee with
      | records kind => simp only [Record.keyword, kind]
      | same =>
        cases target with
        | record => rfl
        | void | basic | enumeration | pointer | function | array =>
          simp only [spelled pointee (List.mem_singleton_self pointee)]
    | function signature =>
      have result := spelled signature.result List.mem_cons_self
      have parameters : ∀ parameter ∈ signature.parameters,
          after.spellingWithin more parameter.type =
            graph.spellingWithin steps parameter.type := by
        intro parameter within
        exact spelled parameter.type (List.mem_cons_of_mem _ (List.mem_map_of_mem within))
      simp only [mapM_congr parameters, result]
    | array element count => simp only [spelled element (List.mem_singleton_self element)]

namespace Evolves

/-- No history changes the look of a type that there was at its start. -/
theorem alike (history : Evolves graph after) (present : type.index < graph.size) :
    (graph.node type).Alike (after.node type) := by
  induction history with
  | refl => exact .same _
  | step earlier fits inductionHypothesis =>
    have still := Nat.lt_of_lt_of_le present earlier.extension.size_le
    exact inductionHypothesis.trans ((perform_effect fits).alike still)

/-- A type is spelled the same for the rest of its life, in as many steps. -/
theorem spellingWithin_eq (history : Evolves graph after) (ordered : graph.Ordered) (steps : Nat)
    (present : type.index < graph.size) :
    after.spellingWithin steps type = graph.spellingWithin steps type := by
  induction steps generalizing type with
  | zero => rfl
  | succ steps inductionHypothesis =>
    have inside : ∀ part ∈ (graph.node type).parts, part.index < graph.size :=
      fun _ => ordered.present
    apply spellingWithin_succ_congr (history.alike present)
    · exact fun part within => history.alike (inside part within)
    · intro part within
      exact inductionHypothesis (inside part (graph.spelledParts_subset type within))

/-- A type is spelled the same for the rest of its life. -/
theorem spelling_eq (history : Evolves graph after) (ordered : graph.Ordered)
    (present : type.index < graph.size) : after.spelling type = graph.spelling type := by
  unfold spelling
  rw [history.spellingWithin_eq ordered _ present]

/-- A question about the pointee that does not look into records keeps its answer. -/
theorem pointee_any_eq (history : Evolves graph after) (ordered : graph.Ordered)
    (present : type.index < graph.size) (question : Node → Bool)
    (shallow : ∀ {left right : Record}, left.isUnion = right.isUnion →
      question (.record left) = question (.record right)) :
    (after.pointee? (after.node type)).any question =
      (graph.pointee? (graph.node type)).any question := by
  have inside : ∀ part ∈ (graph.node type).parts, part.index < graph.size :=
    fun _ => ordered.present
  have alike := history.alike present
  generalize graph.node type = node at alike inside ⊢
  generalize after.node type = later at alike ⊢
  cases alike with
  | records => rfl
  | same =>
    cases node with
    | pointer pointee =>
      have there : pointee.index < graph.size := inside pointee (by simp [Node.parts])
      exact ((history.alike there).answer_eq question shallow).symm
    | void | basic | enumeration | function | record | array => rfl

end Evolves

/-- The answers to all questions about the category of a type. -/
structure Categories where
  void : Bool
  floating : Bool
  integer : Bool
  arithmetic : Bool
  pointer : Bool
  characterPointer : Bool
  function : Bool
  functionPointer : Bool
  record : Bool
  array : Bool
  deriving DecidableEq, Repr

/-- Everything that a graph says about the category of a type. -/
def categories (graph : Graph) (type : Handle) : Categories where
  void := (graph.node type).isVoid
  floating := (graph.node type).isFloating
  integer := (graph.node type).isInteger
  arithmetic := (graph.node type).isArithmetic
  pointer := (graph.node type).isPointer
  characterPointer := graph.isCharacterPointer type
  function := (graph.node type).isFunction
  functionPointer := graph.isFunctionPointer type
  record := (graph.node type).isRecord
  array := (graph.node type).isArray

namespace Evolves

/-- A type stays in its categories. -/
theorem categories_eq (history : Evolves graph after) (ordered : graph.Ordered)
    (present : type.index < graph.size) : after.categories type = graph.categories type := by
  have asked := fun (question : Node → Bool) shallow =>
    ((history.alike present).answer_eq question shallow).symm
  simp only [categories, Categories.mk.injEq]
  exact ⟨asked Node.isVoid fun _ => rfl, asked Node.isFloating fun _ => rfl,
    asked Node.isInteger fun _ => rfl, asked Node.isArithmetic fun _ => rfl,
    asked Node.isPointer fun _ => rfl,
    history.pointee_any_eq ordered present Node.isCharacter fun _ => rfl,
    asked Node.isFunction fun _ => rfl,
    history.pointee_any_eq ordered present Node.isFunction fun _ => rfl,
    asked Node.isRecord fun _ => rfl, asked Node.isArray fun _ => rfl⟩

/-- A type keeps its conversion rank, or the fault of having none. -/
theorem conversionRank_eq (history : Evolves graph after) (ordered : graph.Ordered)
    (present : type.index < graph.size) :
    after.conversionRank type = graph.conversionRank type := by
  have alike := history.alike present
  unfold conversionRank
  rw [history.spelling_eq ordered present]
  generalize graph.node type = node at alike ⊢
  generalize after.node type = later at alike ⊢
  cases alike <;> rfl

/-- A type keeps its range, or the fault of having none. -/
theorem integerRange_eq (history : Evolves graph after) (ordered : graph.Ordered)
    (present : type.index < graph.size) : after.integerRange type = graph.integerRange type := by
  have basis : (after.node type).integerBasis? = (graph.node type).integerBasis? :=
    ((history.alike present).answer_eq Node.integerBasis? fun _ => rfl).symm
  unfold integerRange
  rw [history.spelling_eq ordered present, basis, history.extension.model]

/-- Whether one type represents another stays as it is, faults included. -/
theorem canRepresent_eq (history : Evolves graph after) (ordered : graph.Ordered)
    {wide narrow : Handle} (presentWide : wide.index < graph.size)
    (presentNarrow : narrow.index < graph.size) :
    after.canRepresent wide narrow = graph.canRepresent wide narrow := by
  unfold canRepresent
  rw [history.integerRange_eq ordered presentWide, history.integerRange_eq ordered presentNarrow]

/-- Whether two types are compatible records stays decided or undecided, with the same
fault and the same log line. -/
theorem compatibleRecords_eq (history : Evolves graph after) (ordered : graph.Ordered)
    {left right : Handle} (presentLeft : left.index < graph.size)
    (presentRight : right.index < graph.size) (location : Location) :
    after.compatibleRecords left right location = graph.compatibleRecords left right location := by
  have recordLeft := (history.alike presentLeft).answer_eq Node.isRecord fun _ => rfl
  have recordRight := (history.alike presentRight).answer_eq Node.isRecord fun _ => rfl
  unfold compatibleRecords
  rw [history.spelling_eq ordered presentLeft, history.spelling_eq ordered presentRight,
    recordLeft, recordRight]

/-- Whether values of one type may be assigned to objects of another stays as it is. -/
theorem isAssignable_eq (history : Evolves graph after) (ordered : graph.Ordered)
    {target source : Handle} (presentTarget : target.index < graph.size)
    (presentSource : source.index < graph.size) (location : Location) :
    after.isAssignable target source location = graph.isAssignable target source location := by
  have scalarTarget := (history.alike presentTarget).answer_eq Node.isScalar fun _ => rfl
  have scalarSource := (history.alike presentSource).answer_eq Node.isScalar fun _ => rfl
  unfold isAssignable
  rw [history.compatibleRecords_eq ordered presentTarget presentSource, scalarTarget, scalarSource]

end Evolves

/-- What was found in a finalized record is found in every later graph. -/
theorem read_stable {α : Type} (later : graph.Extends after) {read : Record → Except Fault α}
    {found : α} (given : (graph.finalizedRecord type >>= read) = .ok found) :
    (after.finalizedRecord type >>= read) = .ok found := by
  rw [bind_eq_ok_iff] at given ⊢
  obtain ⟨contents, final, answered⟩ := given
  exact ⟨contents, finalizedRecord_stable later final, answered⟩

/-- The second graph stands by what the first one says about its types. Nodes that have
settled are the same, and what was found of sizes, alignments, layouts and fields is found
again. All other answers are the same, whether they were given or refused. -/
structure StandsBy (before after : Graph) : Prop where
  node : ∀ {type : Handle}, type.index < before.size → (before.node type).isSettled = true →
    after.node type = before.node type
  byteSize : ∀ {type size}, before.byteSize type = .ok size → after.byteSize type = .ok size
  byteAlign : ∀ {type align}, before.byteAlign type = .ok align →
    after.byteAlign type = .ok align
  finalizedRecord : ∀ {type contents}, before.finalizedRecord type = .ok contents →
    after.finalizedRecord type = .ok contents
  fieldNamed? : ∀ {type name found}, before.fieldNamed? type name = .ok found →
    after.fieldNamed? type name = .ok found
  fieldAt? : ∀ {type position found}, before.fieldAt? type position = .ok found →
    after.fieldAt? type position = .ok found
  fieldIndex? : ∀ {type name found}, before.fieldIndex? type name = .ok found →
    after.fieldIndex? type name = .ok found
  spelling : ∀ {type : Handle}, type.index < before.size →
    after.spelling type = before.spelling type
  categories : ∀ {type : Handle}, type.index < before.size →
    after.categories type = before.categories type
  conversionRank : ∀ {type : Handle}, type.index < before.size →
    after.conversionRank type = before.conversionRank type
  integerRange : ∀ {type : Handle}, type.index < before.size →
    after.integerRange type = before.integerRange type
  canRepresent : ∀ {wide narrow : Handle}, wide.index < before.size → narrow.index < before.size →
    after.canRepresent wide narrow = before.canRepresent wide narrow
  compatibleRecords : ∀ {left right : Handle} (location : Location), left.index < before.size →
    right.index < before.size →
    after.compatibleRecords left right location = before.compatibleRecords left right location
  isAssignable : ∀ {target source : Handle} (location : Location), target.index < before.size →
    source.index < before.size →
    after.isAssignable target source location = before.isAssignable target source location

/-- Whatever the history that leads on from a reachable graph, the graph at its end
stands by the answers of the one at its start. -/
theorem Reachable.answers_stable (reachable : graph.Reachable) (history : Evolves graph after) :
    graph.StandsBy after := by
  have ordered : graph.Ordered := reachable.ordered
  have later : graph.Extends after := history.extension
  exact {
    node := later.settled
    byteSize := byteSize_stable later
    byteAlign := byteAlign_stable later
    finalizedRecord := finalizedRecord_stable later
    fieldNamed? := read_stable later
    fieldAt? := read_stable later
    fieldIndex? := read_stable later
    spelling := history.spelling_eq ordered
    categories := history.categories_eq ordered
    conversionRank := history.conversionRank_eq ordered
    integerRange := history.integerRange_eq ordered
    canRepresent := history.canRepresent_eq ordered
    compatibleRecords := fun location left right =>
      history.compatibleRecords_eq ordered left right location
    isAssignable := fun location target source =>
      history.isAssignable_eq ordered target source location }

end Graph

/-- The nested record halfway: the innermost struct has its layout, the others are under
construction. -/
def halfNestedGraph : Graph :=
  (Graph.empty .lp64).after (nestedHistory.take 17)

/-- When the other structs receive members and layouts, the array of innermost structs
keeps its size and the pointer to the outermost struct its spelling. -/
theorem halfNested_answers_stable :
    halfNestedGraph.Reachable ∧ Graph.Evolves halfNestedGraph nestedGraph ∧
      halfNestedGraph.StandsBy nestedGraph ∧ nestedGraph.byteSize ⟨5⟩ = .ok 24 ∧
      nestedGraph.spelling ⟨6⟩ = halfNestedGraph.spelling ⟨6⟩ := by
  have reachable : halfNestedGraph.Reachable := ⟨.lp64, Graph.evolves_after (by decide +kernel)⟩
  have leads : halfNestedGraph.after (nestedHistory.drop 17) = nestedGraph := by decide +kernel
  have history : Graph.Evolves halfNestedGraph nestedGraph :=
    leads ▸ Graph.evolves_after (by decide +kernel)
  have stands : halfNestedGraph.StandsBy nestedGraph := reachable.answers_stable history
  exact ⟨reachable, history, stands, stands.byteSize (by decide +kernel),
    stands.spelling (by decide +kernel)⟩

end CTypeGraph
