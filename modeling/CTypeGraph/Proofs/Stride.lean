import CTypeGraph.Proofs.ExactLayout

/-!
# Objects side by side

The elements of an array stand side by side, so each of them is on its boundary only
if the size of an element is a multiple of its alignment. For scalars this is a matter
of the data model, and nothing but the model can see to it: an `int` of four bytes on a
boundary of three leaves the second one off its boundary. Records see to it by
themselves, whatever their members are, because their size is rounded up to their
alignment in the end. Arrays take over the alignment of their element and are as large
as several of it, none included.

So where the scalars of a model can stand side by side, every type can that has a size.
The alignments may be any numbers from one on.
-/

namespace CTypeGraph

/-- Objects of this span can stand side by side: if the first is on its boundary, then so
are all the others. -/
structure Span.Tiles (span : Span) : Prop where
  positive : 1 ≤ span.align
  multiple : span.align ∣ span.size

/-- Every scalar of the model can stand side by side with others of its type.
Enumerations are stored as `int`, and signedness makes no difference. -/
structure DataModel.Tiled (model : DataModel) : Prop where
  basic : ∀ kind, (model.basic kind).span.Tiles
  pointer : model.pointer.span.Tiles

/-- Two comparisons of numbers decide whether objects of a span can stand side by side. -/
instance (span : Span) : Decidable span.Tiles :=
  decidable_of_iff (1 ≤ span.align ∧ span.align ∣ span.size)
    ⟨fun both => ⟨both.1, both.2⟩, fun tiles => ⟨tiles.positive, tiles.multiple⟩⟩

/-- The scalars of `lp64` can stand side by side. -/
theorem DataModel.lp64_tiled : DataModel.lp64.Tiled where
  basic := by
    intro kind
    cases kind <;> decide
  pointer := by decide

/-- The scalars of `ilp32` can, too, even the one of twelve bytes, since its boundary is four. -/
theorem DataModel.ilp32_tiled : DataModel.ilp32.Tiled where
  basic := by
    intro kind
    cases kind <;> decide
  pointer := by decide

/-- Several objects of one span are as wide as a multiple of it. -/
theorem Span.Tiles.repeated {span : Span} (tiles : span.Tiles) (count : Nat) :
    Span.Tiles ⟨count * span.size, span.align⟩ :=
  ⟨tiles.positive, Nat.dvd_mul_left_of_dvd tiles.multiple count⟩

/-- A record can stand side by side with others, whatever is asked of its members. -/
theorem Placement.ofSpans_tiles (spans : List Span) : (Placement.ofSpans spans).span.Tiles where
  positive := le_widestFrom 1 spans
  multiple := dvd_alignedUp _ (le_widestFrom 1 spans)

namespace Graph

variable {graph : Graph} {type : Handle}

/-- The span that the declarations give can stand side by side with others. -/
theorem Spans.tiles (tiled : graph.model.Tiled) {span : Span} (worked : graph.Spans type span) :
    span.Tiles := by
  induction worked with
  | scalar stated =>
    obtain ⟨kind, rfl⟩ | rfl := scalarExtent?_cases stated
    · exact tiled.basic kind
    · exact tiled.pointer
  | array _ _ inductionHypothesis => exact inductionHypothesis.repeated _
  | record _ _ _ _ => exact Placement.ofSpans_tiles _

/-- In a reachable graph over a model whose scalars can stand side by side, such as both
presets, the size of every type that has one is a multiple of its alignment, and the
alignment is at least one. -/
theorem strides_aligned :
    DataModel.lp64.Tiled ∧ DataModel.ilp32.Tiled ∧
      ∀ {graph : Graph}, graph.Reachable → graph.model.Tiled →
        ∀ {type size}, graph.byteSize type = .ok size →
          ∃ align, graph.byteAlign type = .ok align ∧ 1 ≤ align.toNat ∧
            align.toNat ∣ size.toNat := by
  refine ⟨DataModel.lp64_tiled, DataModel.ilp32_tiled, ?_⟩
  intro graph reachable tiled type size given
  obtain ⟨align, measured⟩ := reachable.ordered.measures_of_byteSize given
  have tiles : Span.Tiles ⟨size.toNat, align.toNat⟩ := (reachable.spans measured).tiles tiled
  exact ⟨align, measured.align, tiles.positive, tiles.multiple⟩

end Graph

/-- A model with boundaries of three and of five bytes. -/
def oddModel : DataModel :=
  { DataModel.lp64 with short := ⟨6, 3⟩, long := ⟨20, 5⟩ }

/-- Unusual boundaries do no harm, as long as they divide the sizes. -/
theorem oddModel_tiled : oddModel.Tiled where
  basic := by
    intro kind
    cases kind <;> decide
  pointer := by decide

/-- The types are, in order: `short`, `long`, an enumeration, a struct of one of each, and
an array of seven of these structs. -/
def oddGraph : Graph :=
  (Graph.empty oddModel).after
    [.internBasic ⟨.short, true⟩, .internBasic ⟨.long, true⟩, .makeEnumeration,
      .makeRecord false, .makeArray ⟨3⟩ 7, .addMember ⟨3⟩ (some "step") ⟨0⟩ default,
      .addMember ⟨3⟩ (some "total") ⟨1⟩ default, .addMember ⟨3⟩ (some "mode") ⟨2⟩ default,
      .finalize ⟨3⟩]

/-- A history over the unusual model leads to the graph. -/
theorem oddGraph_reachable : oddGraph.Reachable :=
  ⟨oddModel, Graph.evolves_after (by decide +kernel)⟩

/-- The members of the struct end at 36 and are on boundaries of three, five and four. The
struct takes 40 bytes on a boundary of five, and the array seven times as many. -/
theorem odd_strides_aligned :
    oddGraph.Reachable ∧ oddGraph.model.Tiled ∧ oddGraph.byteSize ⟨4⟩ = .ok 280 ∧
      ∃ align, oddGraph.byteAlign ⟨4⟩ = .ok align ∧ 1 ≤ align.toNat ∧ align.toNat ∣ 280 := by
  have model : oddGraph.model = oddModel := by decide +kernel
  have tiled : oddGraph.model.Tiled := model ▸ oddModel_tiled
  have size : oddGraph.byteSize ⟨4⟩ = .ok 280 := by decide +kernel
  obtain ⟨_, _, aligned⟩ := Graph.strides_aligned
  exact ⟨oddGraph_reachable, tiled, size, aligned oddGraph_reachable tiled size⟩

/-- Where a scalar cannot stand side by side with others, an array of it is off the boundary. -/
example :
    let graph := (Graph.empty { DataModel.lp64 with int := ⟨4, 3⟩ }).after
      [.internBasic ⟨.int, true⟩, .makeArray ⟨0⟩ 2]
    graph.byteSize ⟨1⟩ = .ok 8 ∧ graph.byteAlign ⟨1⟩ = .ok 3 := by
  decide +kernel

end CTypeGraph
