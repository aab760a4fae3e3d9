import CTypeGraph.Graph.Assignment
import CTypeGraph.Graph.Conversion
import CTypeGraph.Graph.Sameness
import CTypeGraph.History
import CTypeGraph.Proofs.Equivalence
import CTypeGraph.Proofs.Flattening
import CTypeGraph.Proofs.Acceptance
import CTypeGraph.Proofs.Termination
import CTypeGraph.Proofs.Confluence
import CTypeGraph.Proofs.EqualLayout
import CTypeGraph.Proofs.WellFoundedness
import CTypeGraph.Proofs.Alignment
import CTypeGraph.Proofs.Interning
import CTypeGraph.Proofs.Stability
import CTypeGraph.Proofs.Positions
import CTypeGraph.Proofs.RecordLife
import CTypeGraph.Proofs.LastingSameness
import CTypeGraph.Proofs.Substitution
import CTypeGraph.Proofs.Shortcut
import CTypeGraph.Proofs.Atomicity
import CTypeGraph.Proofs.Declarations
import CTypeGraph.Proofs.Promotion
import CTypeGraph.Proofs.MemberSameness
import CTypeGraph.Proofs.Kinds
import CTypeGraph.Proofs.FieldRuns
import CTypeGraph.Proofs.Stride
import CTypeGraph.Proofs.LeastPlacement
import CTypeGraph.Proofs.IntegerValues
import CTypeGraph.Proofs.ConversionRank
import CTypeGraph.Proofs.PointerChains
import CTypeGraph.Proofs.Assignability
import CTypeGraph.Proofs.Independence
import CTypeGraph.Proofs.Recursion
import CTypeGraph.Proofs.SpellingIdentity
import CTypeGraph.Proofs.LogLines
