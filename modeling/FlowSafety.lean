import FlowSafety.Catalogue.Builtins
import FlowSafety.Catalogue.Text
import FlowSafety.Classifier
import FlowSafety.Json.Printer
import FlowSafety.Path.Draft
import FlowSafety.Pattern.Shape
import FlowSafety.Proofs.Catalogue.Registration
import FlowSafety.Proofs.Charset.Concatenation
import FlowSafety.Proofs.Charset.Coverage
import FlowSafety.Proofs.Charset.Represents
import FlowSafety.Proofs.Interval.Bitwise
import FlowSafety.Proofs.Interval.Lattice
import FlowSafety.Proofs.Interval.Monotone
import FlowSafety.Proofs.Interval.Order
import FlowSafety.Proofs.Interval.Subtraction
import FlowSafety.Proofs.Interval.Tightness
import FlowSafety.Proofs.Numeric.Capping
import FlowSafety.Proofs.Numeric.LoopNest
import FlowSafety.Proofs.Numeric.OperandCounts
import FlowSafety.Proofs.Numeric.Refinement
import FlowSafety.Proofs.Path.Ancestry
import FlowSafety.Proofs.Path.Draft
import FlowSafety.Proofs.Path.Persistence
import FlowSafety.Proofs.Pattern.Agreement
import FlowSafety.Proofs.Pattern.Confinement
import FlowSafety.Proofs.Pattern.KnownValues
import FlowSafety.Proofs.Text.Casing
import FlowSafety.Proofs.Text.Cutting
import FlowSafety.Proofs.Text.Injection
import FlowSafety.Proofs.Text.Lengths
import FlowSafety.Proofs.Text.Lossy
import FlowSafety.Proofs.Text.Pieces
import FlowSafety.Proofs.Text.Rendering
import FlowSafety.Proofs.Walk.Disclosure
import FlowSafety.Proofs.Walk.Independence
import FlowSafety.Proofs.Walk.Pending
import FlowSafety.Proofs.Walk.Precision
import FlowSafety.Proofs.Walk.Structure
import FlowSafety.Value.Json
import FlowSafety.Verdict.Json
