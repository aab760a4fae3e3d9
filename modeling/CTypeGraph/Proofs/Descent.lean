import CTypeGraph.Graph.Category
import CTypeGraph.Proofs.Containment
import Mathlib.Data.Finset.Card
import Mathlib.Data.List.Chain
import Mathlib.Logic.Relation

/-!
# Where following a type leads

A comparison that is already among the members of records goes from a record to
the types of its members, from a function to its result and parameters, and from
a pointer to its pointee unless that is a record. `Follows` is this step. Nothing
in a graph rules out that such a path comes back to where it started: a record
may hold a pointer to a function that returns the record. `LoopsThroughFunction`
is the case in question, and it is the only one. A path that meets no function
never comes back, since pointers lead to earlier types and what a record holds by
value has an end.

Where there is no way back, a path meets nothing twice, which bounds its length by
the number of places to be.
-/

namespace CTypeGraph

open Relation

/-- The nodes of records are those that hold a record. -/
theorem Node.isRecord_iff {node : Node} :
    node.isRecord = true ↔ ∃ contents, node = .record contents := by
  cases node <;> simp [isRecord]

namespace Graph

variable {graph : Graph} {type : Handle}

/-- The types that a type holds by value. -/
def held (graph : Graph) (type : Handle) : List Handle :=
  match graph.node type with
  | .record contents => if contents.isFinalized then contents.members.map (·.type) else []
  | .array element _ => [element]
  | .void | .basic _ | .enumeration | .pointer _ | .function _ => []

/-- The first type holds the second by value. -/
def Holds (graph : Graph) (outer inner : Handle) : Prop :=
  inner ∈ graph.held outer

/-- What a type holds by value is a list, so holding is decided by a search. -/
instance (graph : Graph) (outer inner : Handle) : Decidable (graph.Holds outer inner) :=
  inferInstanceAs (Decidable (inner ∈ graph.held outer))

/-- The types that a comparison among members goes on to from a type. -/
def followed (graph : Graph) (type : Handle) : List Handle :=
  match graph.node type with
  | .record contents => if contents.isFinalized then contents.members.map (·.type) else []
  | .function signature => signature.result :: signature.parameters.map (·.type)
  | .pointer pointee => if (graph.node pointee).isRecord then [] else [pointee]
  | .void | .basic _ | .enumeration | .array .. => []

/-- A comparison among members goes on from the first type to the second. -/
def Follows (graph : Graph) (type next : Handle) : Prop :=
  next ∈ graph.followed type

/-- What a comparison goes on to is a list, so following is decided by a search. -/
instance (graph : Graph) (type next : Handle) : Decidable (graph.Follows type next) :=
  inferInstanceAs (Decidable (next ∈ graph.followed type))

/-- A finalized record that following leads back to by way of a function: it
reaches itself by value through a function type. -/
def LoopsThroughFunction (graph : Graph) (type : Handle) : Prop :=
  ∃ contents, graph.node type = .record contents ∧ contents.isFinalized = true ∧
    ∃ function signature, graph.node function = .function signature ∧
      TransGen graph.Follows type function ∧ TransGen graph.Follows function type

/-- Where a rank of the types goes down with every step, no record reaches itself
by way of a function. -/
theorem not_loopsThroughFunction_of_rank (rank : Handle → ℕ)
    (descends : ∀ index < graph.size, ∀ next ∈ graph.followed ⟨index⟩, rank next < rank ⟨index⟩)
    (type : Handle) : ¬ graph.LoopsThroughFunction type := by
  have step : ∀ {type next : Handle}, graph.Follows type next → rank next < rank type := by
    intro type next follows
    by_cases inside : type.index < graph.size
    · exact descends type.index inside next follows
    · have empty : graph.node type = .void := node_of_size_le (Nat.le_of_not_lt inside)
      simp [Follows, followed, empty] at follows
  have path : ∀ {start finish : Handle}, TransGen graph.Follows start finish →
      rank finish < rank start := by
    intro start finish way
    induction way with
    | single follows => exact step follows
    | tail _ follows before => exact Nat.lt_trans (step follows) before
  rintro ⟨_, _, _, function, _, _, out, home⟩
  exact Nat.lt_asymm (path out) (path home)

/-- Holding by value has an end below a grounded type. -/
theorem Grounded.acc (grounded : graph.Grounded type) :
    Acc (fun inner outer => graph.Holds outer inner) type := by
  induction grounded with
  | @scalar type extent stated =>
    refine ⟨type, fun inner holds => ?_⟩
    cases there : graph.node type with
    | basic | enumeration | pointer | void | function => simp [Holds, held, there] at holds
    | record | array => simp [scalarExtent?, there] at stated
  | @array type element count there _ inductionHypothesis =>
    refine ⟨type, fun inner holds => ?_⟩
    simp only [Holds, held, there, List.mem_singleton] at holds
    rw [holds]
    exact inductionHypothesis
  | @record type contents there final _ inductionHypothesis =>
    refine ⟨type, fun inner holds => ?_⟩
    simp only [Holds, held, there, final, if_true] at holds
    obtain ⟨member, within, rfl⟩ := List.mem_map.mp holds
    exact inductionHypothesis member within

/-- No grounded type holds itself by value, at any depth. -/
theorem Grounded.not_holds_self (grounded : graph.Grounded type) :
    ¬ TransGen graph.Holds type type := by
  have accessible : Acc (TransGen fun inner outer => graph.Holds outer inner) type :=
    grounded.acc.transGen
  clear grounded
  induction accessible with
  | intro type _ inductionHypothesis =>
    intro loop
    exact inductionHypothesis type (transGen_swap.mp loop) loop

/-- From anything but a record, following leads to an earlier type. -/
theorem Follows.earlier (ordered : graph.Ordered) {next : Handle}
    (follows : graph.Follows type next) (solid : ∀ contents, graph.node type ≠ .record contents) :
    next.index < type.index := by
  apply ordered.earlier solid
  unfold Follows followed at follows
  cases there : graph.node type with
  | record contents => exact absurd there (solid contents)
  | function signature =>
    simp only [there] at follows
    exact follows
  | pointer pointee =>
    simp only [there] at follows
    split at follows
    · cases follows
    · exact follows
  | void | basic | enumeration | array => simp [there] at follows

/-- Following leads to an earlier type or starts from a finalized record. -/
theorem Follows.earlier_or_record (ordered : graph.Ordered) {next : Handle}
    (follows : graph.Follows type next) :
    next.index < type.index ∨
      ∃ contents, graph.node type = .record contents ∧ contents.isFinalized = true := by
  by_cases record : ∃ contents, graph.node type = .record contents
  · obtain ⟨contents, there⟩ := record
    cases final : contents.isFinalized with
    | true => exact Or.inr ⟨contents, there, final⟩
    | false => simp [Follows, followed, there, final] at follows
  · exact Or.inl (follows.earlier ordered (not_exists.mp record))

/-- What a record is followed to it holds by value. -/
theorem Follows.holds {next : Handle} (follows : graph.Follows type next) {contents : Record}
    (there : graph.node type = .record contents) : graph.Holds type next := by
  simpa [Follows, followed, Holds, held, there] using follows

/-- A path that does not lead to an earlier type passes through a finalized record. -/
theorem path_earlier_or_record (ordered : graph.Ordered) {start finish : Handle}
    (path : TransGen graph.Follows start finish) :
    finish.index < start.index ∨
      ∃ middle contents, graph.node middle = .record contents ∧ contents.isFinalized = true ∧
        ReflTransGen graph.Follows start middle ∧ TransGen graph.Follows middle finish := by
  induction path with
  | single follows =>
    rcases follows.earlier_or_record ordered with before | ⟨contents, there, final⟩
    · exact Or.inl before
    · exact Or.inr ⟨start, contents, there, final, .refl, .single follows⟩
  | @tail middle finish path follows inductionHypothesis =>
    rcases inductionHypothesis with before | ⟨record, contents, there, final, early, late⟩
    · rcases follows.earlier_or_record ordered with earlier | ⟨contents, there, final⟩
      · exact Or.inl (Nat.lt_trans earlier before)
      · exact Or.inr ⟨middle, contents, there, final, path.to_reflTransGen, .single follows⟩
    · exact Or.inr ⟨record, contents, there, final, early, late.tail follows⟩

/-- A path from a record either meets a function, or consists of holding by value
alone, or ends outside the records: a pointer does not lead to a record, and what
follows a pointer is a pointer again or a function. -/
theorem path_from_record {start finish : Handle} {contents : Record}
    (there : graph.node start = .record contents) (path : TransGen graph.Follows start finish) :
    (∃ function signature, graph.node function = .function signature ∧
        TransGen graph.Follows start function ∧ ReflTransGen graph.Follows function finish) ∨
      TransGen graph.Holds start finish ∨
      ∀ contents, graph.node finish ≠ .record contents := by
  induction path with
  | single follows => exact Or.inr (Or.inl (.single (follows.holds there)))
  | @tail middle finish path follows inductionHypothesis =>
    cases known : graph.node middle with
    | function signature => exact Or.inl ⟨middle, signature, known, path, .single follows⟩
    | pointer pointee =>
      rcases inductionHypothesis with ⟨function, signature, met, early, late⟩ | _
      · exact Or.inl ⟨function, signature, met, early, late.tail follows⟩
      · refine Or.inr (Or.inr fun contents record => ?_)
        simp only [Follows, followed, known] at follows
        split at follows
        case isTrue => cases follows
        case isFalse solid =>
          rw [List.mem_singleton.mp follows] at record
          exact solid (Node.isRecord_iff.mpr ⟨contents, record⟩)
    | record inner =>
      rcases inductionHypothesis with ⟨function, signature, met, early, late⟩ | held | outside
      · exact Or.inl ⟨function, signature, met, early, late.tail follows⟩
      · exact Or.inr (Or.inl (held.tail (follows.holds known)))
      · exact absurd known (outside inner)
    | void | basic | enumeration | array => simp [Follows, followed, known] at follows

/-- In a reachable graph without records that reach themselves by value through a
function type, following never leads back. A way back would pass through a
finalized record, because everything else leads to earlier types. From that
record back to itself it meets no function, by assumption, so it consists of
holding by value, and a finalized record does not hold itself. -/
theorem Reachable.follows_acyclic (reachable : graph.Reachable)
    (straight : ∀ type, ¬ graph.LoopsThroughFunction type) (type : Handle) :
    ¬ TransGen graph.Follows type type := by
  intro loop
  rcases path_earlier_or_record reachable.ordered loop with
    before | ⟨record, contents, there, final, early, late⟩
  · exact Nat.lt_irrefl _ before
  · have back : TransGen graph.Follows record record := late.trans_left early
    rcases path_from_record there back with ⟨function, signature, met, out, home⟩ | held | outside
    · have apart : record ≠ function := by
        rintro rfl
        simp [there] at met
      have homeward : TransGen graph.Follows function record :=
        (reflTransGen_iff_eq_or_transGen.mp home).resolve_left apart
      exact straight record ⟨contents, there, final, function, signature, met, out, homeward⟩
    · exact (reachable.record_grounded there final).not_holds_self held
    · exact outside contents there

end Graph

/-- A chain of a relation without a way back never meets the same thing twice. -/
theorem nodup_of_acyclic {α : Type} {r : α → α → Prop} (acyclic : ∀ a, ¬ TransGen r a a)
    {chain : List α} (linked : chain.IsChain r) : chain.Nodup := by
  have paths : chain.IsChain (TransGen r) := linked.imp fun _ _ => .single
  refine paths.pairwise.imp ?_
  rintro first second path rfl
  exact acyclic first path

end CTypeGraph
