import ShapedTensor.Element.Complex
import ShapedTensor.MatrixView
import ShapedTensor.Operand
import ShapedTensor.Tensor.Nested
import ShapedTensor.Proofs.Contraction.Associative
import ShapedTensor.Proofs.Contraction.Faults
import ShapedTensor.Proofs.Contraction.Linear
import ShapedTensor.Proofs.Contraction.Order
import ShapedTensor.Proofs.Contraction.Swap
import ShapedTensor.Proofs.Index.Enumeration
import ShapedTensor.Proofs.Layout.Comparison
import ShapedTensor.Proofs.Layout.Conversion
import ShapedTensor.Proofs.Layout.Exhaustive
import ShapedTensor.Proofs.Layout.Overflow
import ShapedTensor.Proofs.Layout.Packed
import ShapedTensor.Proofs.Layout.Span
import ShapedTensor.Proofs.Operand.Adjoint
import ShapedTensor.Proofs.Operand.Equality
import ShapedTensor.Proofs.Operand.Multilinear
import ShapedTensor.Proofs.Operand.Norm
import ShapedTensor.Proofs.Source.Conjugate
import ShapedTensor.Proofs.Source.Copy
import ShapedTensor.Proofs.Target.Refusal
import ShapedTensor.Proofs.Tensor.History
import ShapedTensor.Proofs.Tensor.Nested
import ShapedTensor.Proofs.Tensor.Resize
import ShapedTensor.Proofs.Tensor.RoundTrip
import ShapedTensor.Proofs.View.Access
import ShapedTensor.Proofs.View.Nested
import ShapedTensor.Proofs.View.Turned
import ShapedTensor.Proofs.ZeroTensor.Simulation
import ShapedTensor.Proofs.Contraction.Partition
import ShapedTensor.Proofs.Shape.Lossless
import ShapedTensor.Proofs.Source.Printed
import ShapedTensor.Proofs.Matrix.Bridge
