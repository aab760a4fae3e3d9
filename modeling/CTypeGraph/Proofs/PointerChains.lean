import CTypeGraph.Proofs.Interning
import CTypeGraph.Proofs.Termination

/-!
# Pointer chains are compared by identity

Types that are the same need not be one type of the graph. Two enumerations are the same, and so
are two functions that were made one after the other, and the pointers to them. It is different
with a type that is built from `void` and the basic types by pointers alone. It is the same as
itself and as no other type, so comparing such a type and comparing its handle come to one thing,
however long the chain of pointers is.

A `PointerChain` is such a type written out, without reference to a graph. Two arguments meet in
it. The tables keep one handle for the content of each shared node, so that no chain is denoted
by two handles: this goes up the chain. A comparison that says yes leads from a type that a chain
denotes to a type that the same chain denotes: this goes down the chain. Nothing has to be known
about the second type in advance, nor about the number of its pointers.
-/

namespace CTypeGraph

/-- A type written out that is built from `void` and the basic types by pointers alone. -/
inductive PointerChain where
  | void
  | basic (type : BasicType)
  | pointer (pointee : PointerChain)
  deriving DecidableEq, Repr

namespace Graph

variable {graph : Graph} {chain : PointerChain} {type other : Handle}

/-- The handle denotes a type of the graph that is built as the chain says. -/
def Denotes (graph : Graph) : PointerChain → Handle → Prop
  | .void, type => type.index < graph.size ∧ graph.node type = .void
  | .basic basic, type => graph.node type = .basic basic
  | .pointer pointee, type =>
    ∃ inner, graph.node type = .pointer inner ∧ graph.Denotes pointee inner

namespace Denotes

/-- What a chain denotes is a type of the graph. -/
theorem present (denotes : graph.Denotes chain type) : type.index < graph.size := by
  cases chain with
  | void => exact denotes.1
  | basic basic =>
    apply present_of_node
    rw [denotes]
    exact Node.noConfusion
  | pointer pointee =>
    obtain ⟨inner, there, _⟩ := denotes
    apply present_of_node
    rw [there]
    exact Node.noConfusion

/-- What a chain denotes is shared, so it is no record. -/
theorem isShared (denotes : graph.Denotes chain type) : (graph.node type).isShared = true := by
  cases chain with
  | void => rw [denotes.2, Node.isShared]
  | basic basic => rw [denotes, Node.isShared]
  | pointer pointee =>
    obtain ⟨inner, there, _⟩ := denotes
    rw [there, Node.isShared]

/-- A type is built in one way. -/
theorem chain_eq {chain' : PointerChain} (denotes : graph.Denotes chain type)
    (denotes' : graph.Denotes chain' type) : chain = chain' := by
  induction chain generalizing chain' type with
  | void =>
    have there : graph.node type = .void := denotes.2
    cases chain' <;> simp [Denotes, there] at denotes' ⊢
  | basic basic =>
    have there : graph.node type = .basic basic := denotes
    cases chain' <;> simp [Denotes, there] at denotes' ⊢
    exact denotes'
  | pointer pointee inductionHypothesis =>
    obtain ⟨inner, there, denotesInner⟩ := denotes
    cases chain' with
    | void => simp [Denotes, there] at denotes'
    | basic => simp [Denotes, there] at denotes'
    | pointer pointee' =>
      obtain ⟨inner', there', denotesInner'⟩ := denotes'
      obtain rfl : inner = inner' := Node.pointer.inj (there.symm.trans there')
      rw [inductionHypothesis denotesInner denotesInner']

end Denotes

/-- Where tables and nodes agree, a chain is denoted by one handle. By induction up the chain:
pointers to one and the same type have one and the same node. -/
theorem Canonical.denoted_unique (canonical : graph.Canonical) (denotes : graph.Denotes chain type)
    (denotes' : graph.Denotes chain other) : type = other := by
  have alike : graph.node type = graph.node other := by
    induction chain generalizing type other with
    | void => exact denotes.2.trans denotes'.2.symm
    | basic basic => exact Eq.trans denotes (Eq.symm denotes')
    | pointer pointee inductionHypothesis =>
      obtain ⟨inner, there, denotesInner⟩ := denotes
      obtain ⟨inner', there', denotesInner'⟩ := denotes'
      have one : inner = inner' := canonical.unique denotesInner.present denotesInner'.present
        denotesInner.isShared (inductionHypothesis denotesInner denotesInner')
      rw [there, there', one]
  exact canonical.unique denotes.present denotes'.present denotes.isShared alike

/-- What compares as the same as a type that a chain denotes is denoted by that chain. By
induction down the chain: the other type is of the same kind, and if both are pointers, they are
followed, since what a chain denotes is no record. -/
theorem Confirmed.denotes (ordered : graph.Ordered) {rule : RecordPointers}
    (same : graph.Confirmed graph.comparisonSteps rule type other)
    (denotes : graph.Denotes chain type) (present : other.index < graph.size) :
    graph.Denotes chain other := by
  induction chain generalizing type other with
  | void =>
    have alike := confirmed_iff_alike.mp same
    rw [denotes.2] at alike
    generalize there : graph.node other = node at alike
    cases alike
    exact ⟨present, there⟩
  | basic basic =>
    have alike := confirmed_iff_alike.mp same
    rw [denotes] at alike
    generalize there : graph.node other = node at alike
    cases alike
    exact there
  | pointer pointee inductionHypothesis =>
    obtain ⟨inner, there, denotesInner⟩ := denotes
    have alike := confirmed_iff_alike.mp same
    rw [there] at alike
    generalize there' : graph.node other = node at alike
    cases alike with
    | samePlace => exact ⟨inner, there', denotesInner⟩
    | bothIncomplete _ record =>
      have shared := denotesInner.isShared
      rw [record] at shared
      cases shared
    | @pointees _ inner' _ sameInner =>
      have part : inner' ∈ (graph.node other).parts := by
        rw [there', Node.parts]
        exact List.mem_singleton_self inner'
      have presentInner : inner'.index < graph.size := ordered.present part
      exact ⟨inner', there', inductionHypothesis sameInner denotesInner presentInner⟩

/-- In a reachable graph types that are built from `void` and the basic types by pointers alone
are the same exactly when their handles are equal, which is exactly when they are built alike. No
type that is built otherwise is the same as one of them either. -/
theorem Reachable.sameType_pointerChain (reachable : graph.Reachable)
    (denotes : graph.Denotes chain type) :
    (∀ other chain', graph.Denotes chain' other →
        (graph.sameType type other = true ↔ type = other) ∧ (type = other ↔ chain = chain')) ∧
      ∀ other : Handle, other.index < graph.size → graph.sameType type other = true →
        type = other := by
  have one : ∀ {other}, graph.Denotes chain other → type = other :=
    reachable.canonical.denoted_unique denotes
  have ofSame : ∀ other : Handle, other.index < graph.size → graph.sameType type other = true →
      type = other := by
    intro other present same
    exact one ((sameType_eq_true_iff.mp same).denotes reachable.ordered denotes present)
  refine ⟨fun other chain' denotes' => ⟨⟨ofSame other denotes'.present, ?same⟩, ?alike, ?unique⟩,
    ofSame⟩
  case same =>
    rintro rfl
    exact sameType_eq_true_iff.mpr confirmed_self
  case alike =>
    rintro rfl
    exact denotes.chain_eq denotes'
  case unique =>
    rintro rfl
    exact one denotes'

end Graph

/-! ## Chains asked for twice -/

/-- The types are, in order: `char`, the pointers to it of one, two and three levels, the same for
`unsigned char`, `void` and the pointer to it, and two enumerations with the pointers to them. The
last three operations ask for `char` and the first two of its pointers once more. -/
def chainedGraph : Graph :=
  (Graph.empty .lp64).after
    [.internBasic ⟨.char, true⟩, .internPointer ⟨0⟩, .internPointer ⟨1⟩, .internPointer ⟨2⟩,
      .internBasic ⟨.char, false⟩, .internPointer ⟨4⟩, .internPointer ⟨5⟩, .internPointer ⟨6⟩,
      .internVoid, .internPointer ⟨8⟩, .makeEnumeration, .internPointer ⟨10⟩,
      .makeEnumeration, .internPointer ⟨12⟩,
      .internBasic ⟨.char, true⟩, .internPointer ⟨0⟩, .internPointer ⟨1⟩]

/-- A pointer of three levels is the same as itself, and the same neither as the pointer of two
levels, nor as the pointer of three levels to the other `char`, nor as a pointer to an
enumeration. -/
theorem chained_sameType_pointerChain :
    chainedGraph.Reachable ∧
      chainedGraph.Denotes (.pointer (.pointer (.pointer (.basic ⟨.char, true⟩)))) ⟨3⟩ ∧
      chainedGraph.Denotes (.pointer (.pointer (.pointer (.basic ⟨.char, false⟩)))) ⟨7⟩ ∧
      chainedGraph.sameType ⟨3⟩ ⟨3⟩ = true ∧ chainedGraph.sameType ⟨3⟩ ⟨2⟩ = false ∧
      chainedGraph.sameType ⟨3⟩ ⟨7⟩ = false ∧ chainedGraph.sameType ⟨3⟩ ⟨11⟩ = false := by
  have reachable : chainedGraph.Reachable := ⟨.lp64, Graph.evolves_after (by decide +kernel)⟩
  have double : chainedGraph.Denotes (.pointer (.pointer (.basic ⟨.char, true⟩))) ⟨2⟩ :=
    ⟨⟨1⟩, by decide +kernel, ⟨0⟩, by decide +kernel, by unfold Graph.Denotes; decide +kernel⟩
  have triple : chainedGraph.Denotes (.pointer (.pointer (.pointer (.basic ⟨.char, true⟩)))) ⟨3⟩ :=
    ⟨⟨2⟩, by decide +kernel, double⟩
  have unsigned :
      chainedGraph.Denotes (.pointer (.pointer (.pointer (.basic ⟨.char, false⟩)))) ⟨7⟩ :=
    ⟨⟨6⟩, by decide +kernel, ⟨5⟩, by decide +kernel, ⟨4⟩, by decide +kernel,
      by unfold Graph.Denotes; decide +kernel⟩
  obtain ⟨built, others⟩ := reachable.sameType_pointerChain triple
  refine ⟨reachable, triple, unsigned, (built _ _ triple).1.mpr rfl, ?_, ?_, ?_⟩
  · rw [← Bool.not_eq_true, (built _ _ double).1]
    decide
  · rw [← Bool.not_eq_true, (built _ _ unsigned).1]
    decide
  · rw [← Bool.not_eq_true]
    intro same
    exact absurd (others ⟨11⟩ (by decide +kernel) same) (by decide)

/-- It takes more than pointers to be so. The pointers to the two enumerations are shared as well,
and they are the same although their handles differ. -/
example : chainedGraph.sameType ⟨11⟩ ⟨13⟩ = true := by
  decide +kernel

end CTypeGraph
