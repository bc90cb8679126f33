import ShapedTensor.Operand
import ShapedTensor.Proofs.Tensor.Cells

namespace ShapedTensor

open Index

/-- The maps of single elements that keep zero. -/
inductive Scaling (T : Type) [Element T] where
  | neg
  | scale (factor : T)
  | scaleLeft (factor : T)
  | unscale (divisor : T) (nonzero : divisor ≠ 0)

namespace Scaling

variable {T : Type} [Element T]

def change : Scaling T → T → T
  | neg => (- ·)
  | scale factor => (· * factor)
  | scaleLeft factor => (factor * ·)
  | unscale divisor _ => (· / divisor)

/-- The map of all elements of a source into a new tensor. -/
def ofSource : Scaling T → Source T → Except Fault (Tensor T)
  | neg => Source.neg
  | scale factor => (·.scale factor)
  | scaleLeft factor => (·.scaleLeft factor)
  | unscale divisor _ => (·.unscale divisor)

/-- A new tensor holds the images of the elements. -/
theorem ofSource_eq (scaling : Scaling T) (source : Source T) :
    scaling.ofSource source = source.map scaling.change := by
  cases scaling <;> rfl

end Scaling

/-- An operation on one operand, with all the others. -/
inductive Operation (T : Type) [Element T] where
  /-- The sum of the operand with a tensor that is given away. -/
  | addTensor (right : Tensor T)
  /-- The difference of the operand and a tensor that is given away. -/
  | subTensor (right : Tensor T)
  /-- The sum of a tensor that is given away with the operand. -/
  | tensorAdd (left : Tensor T)
  /-- The difference of a tensor that is given away and the operand. -/
  | tensorSub (left : Tensor T)
  | add (right : Operand T)
  | sub (right : Operand T)
  | addTo (left : Operand T)
  | subFrom (left : Operand T)
  /-- The sum with a zero tensor. -/
  | addZero (right : ZeroTensor T)
  /-- The difference to a zero tensor. -/
  | subZero (right : ZeroTensor T)
  /-- The image in a new tensor. -/
  | image (scaling : Scaling T)
  /-- The image in the cells of the operand. -/
  | imageInPlace (scaling : Scaling T)
  | mul (right : Operand T)
  | mulTo (left : Operand T)
  /-- The product over one pair of axes with the operand conjugated. -/
  | dot (right : Source T)
  /-- The product over two pairs of axes with the operand conjugated. -/
  | doubleDot (right : Source T)
  /-- The product over one pair of axes as a dense tensor. -/
  | denseDot (right : Source T)
  /-- The product over two pairs of axes as a dense tensor. -/
  | denseDoubleDot (right : Source T)
  | inner (right : Source T)
  | bilinear (left right : Source T)
  /-- The contraction of every axis of the operand with one of the others. -/
  | multilinear (first : Source T) (others : List (Source T))
  /-- A matrix-vector product into a target over the given cells. -/
  | matVec (form : MatrixForm) (accumulation : Accumulation T) (vector : Source T) (target : Target)
      (cells : Array T)
  | sumAbsSq
  /-- The root of the sum of the squared lengths. -/
  | length
  | maxAbs
  | equals (right : Operand T)
  | equalsTo (left : Operand T)
  /-- The comparison of the only element with a value. -/
  | equalsValue (value : T)
  | text

/-- What an operation gives. -/
inductive Outcome (T R : Type) where
  | tensor (result : Source T)
  | element (result : T)
  | length (result : R)
  | truth (result : Bool)
  | text (result : String)
  | cells (result : Array T)

namespace Outcome

variable {T R : Type}

def ofTensor (tensor : Tensor T) : Outcome T R := .tensor tensor.source

def ofZero [Element T] (zero : ZeroTensor T) : Outcome T R := .tensor zero.source

def ofOperand [Element T] (operand : Operand T) : Outcome T R := .tensor operand.source

/-- Two outcomes agree when they are the same, or tensors of the same sizes with an element at every
index and the same one. -/
def Agrees : Outcome T R → Outcome T R → Prop
  | .tensor left, .tensor right =>
      left.shape.sizes = right.shape.sizes ∧ ∀ index, Inside left.shape.sizes index →
        ∃ element, left.read index = .ok element ∧ right.read index = .ok element
  | .element left, .element right => left = right
  | .length left, .length right => left = right
  | .truth left, .truth right => left = right
  | .text left, .text right => left = right
  | .cells left, .cells right => left = right
  | _, _ => False

/-- A full tensor agrees with itself. -/
theorem agrees_of_full {tensor : Tensor T} (full : tensor.Full) :
    (ofTensor tensor : Outcome T R).Agrees (ofTensor tensor) := by
  refine ⟨rfl, fun index inside => ?_⟩
  obtain ⟨element, _, read⟩ := full.read_eq inside
  exact ⟨element, read, read⟩

/-- A tensor that reads zero everywhere agrees with the zero tensor of its sizes. -/
theorem agrees_of_zeros [Element T] {tensor : Tensor T} {zero : ZeroTensor T}
    (sizes : tensor.shape.sizes = zero.shape.sizes)
    (reads : ∀ index, Inside tensor.shape.sizes index → tensor.read index = .ok 0) :
    (ofTensor tensor : Outcome T R).Agrees (ofZero zero) :=
  ⟨sizes, fun index inside => ⟨0, reads index inside, rfl⟩⟩

end Outcome

namespace Operation

variable {T R : Type} [Element T] [RealElement R] [Magnitude T R] [ElementText T]

/-- The outcome of an operation, for which zero tensors have their own sums, products and
comparisons. -/
def run : Operation T → Operand T → Except Fault (Outcome T R)
  | addTensor right, .ofZero zero => Outcome.ofTensor <$> zero.addTensor right
  | subTensor right, .ofZero zero => Outcome.ofTensor <$> zero.subTensor right
  | tensorAdd left, .ofZero zero => Outcome.ofTensor <$> zero.keepTensor left
  | tensorSub left, .ofZero zero => Outcome.ofTensor <$> zero.keepTensor left
  | addTensor right, operand => Outcome.ofTensor <$> operand.add right.source
  | subTensor right, operand => Outcome.ofTensor <$> operand.sub right.source
  | tensorAdd left, operand => Outcome.ofTensor <$> left.source.add operand.source
  | tensorSub left, operand => Outcome.ofTensor <$> left.source.sub operand.source
  | add right, operand => Outcome.ofTensor <$> operand.add right.source
  | sub right, operand => Outcome.ofTensor <$> operand.sub right.source
  | addTo left, operand => Outcome.ofTensor <$> left.add operand.source
  | subFrom left, operand => Outcome.ofTensor <$> left.sub operand.source
  | addZero right, .ofZero zero | subZero right, .ofZero zero =>
      Outcome.ofZero <$> zero.combine right
  | addZero right, operand => Outcome.ofTensor <$> operand.add right.source
  | subZero right, operand => Outcome.ofTensor <$> operand.sub right.source
  | image scaling, operand => Outcome.ofOperand <$> operand.map scaling.ofSource
  | imageInPlace scaling, .ofTensor tensor => Outcome.ofTensor <$> tensor.map scaling.change
  | imageInPlace scaling, operand => Outcome.ofOperand <$> operand.map scaling.ofSource
  | mul right, operand => Outcome.ofOperand <$> operand.mul right
  | mulTo left, operand => Outcome.ofOperand <$> left.mul operand
  | dot right, .ofZero zero => Outcome.ofZero <$> zero.contractAdjacent 1 right
  | doubleDot right, .ofZero zero => Outcome.ofZero <$> zero.contractAdjacent 2 right
  | denseDot right, .ofZero zero => do
      let product ← zero.contractAdjacent 1 right
      Outcome.ofTensor <$> product.toTensor
  | denseDoubleDot right, .ofZero zero => do
      let product ← zero.contractAdjacent 2 right
      Outcome.ofTensor <$> product.toTensor
  | dot right, operand | denseDot right, operand => Outcome.ofTensor <$> operand.source.dot right
  | doubleDot right, operand | denseDoubleDot right, operand =>
      Outcome.ofTensor <$> operand.source.doubleDot right
  | inner right, operand => .element <$> operand.inner right
  | bilinear left right, operand => .element <$> operand.bilinear left right
  | multilinear first others, operand =>
      Outcome.ofTensor <$> operand.source.multilinear (first :: others)
  | matVec form accumulation vector target cells, operand =>
      match operand.matVec form accumulation vector target cells with
      | .ok _ after => .ok (.cells after)
      | .error fault _ => .error fault
  | sumAbsSq, operand => .length <$> operand.sumAbsSq
  | length, operand => (fun total => .length (RealElement.sqrt total)) <$> operand.sumAbsSq
  | maxAbs, operand => .length <$> operand.maxAbs
  | equals right, operand => .truth <$> operand.equals right
  | equalsTo left, operand => .truth <$> left.equals operand
  | equalsValue value, .ofZero _ => .ok (.truth (value == 0))
  | equalsValue value, operand => do
      let element ← operand.source.read []
      return .truth (element == value)
  | text, operand => .text <$> operand.text

/-- A matrix-vector product gives the cells that it leaves. -/
theorem run_matVec {form : MatrixForm} {accumulation : Accumulation T} {vector : Source T}
    {target : Target} {cells : Array T} {operand : Operand T} {outcome : Outcome T R} :
    (matVec form accumulation vector target cells).run operand = .ok outcome ↔
      ∃ after, operand.matVec form accumulation vector target cells = .ok () after ∧
        .cells after = outcome := by
  rw [run]
  cases operand.matVec form accumulation vector target cells <;> simp

/-- A zero tensor stands for a dense one under an operation when it succeeds whenever that does, with
an outcome that agrees. -/
def Simulated (operation : Operation T) (R : Type) [RealElement R] [Magnitude T R]
    (tensor : Tensor T) (zero : ZeroTensor T) : Prop :=
  ∀ outcome : Outcome T R, operation.run (.ofTensor tensor) = .ok outcome →
    ∃ other : Outcome T R, operation.run (.ofZero zero) = .ok other ∧ outcome.Agrees other

end Operation

end ShapedTensor
