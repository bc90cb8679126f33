import ShapedTensor.Contraction.Kernel

namespace ShapedTensor.Source

variable {T : Type} [Element T]

/-- The product over the last axis of the left and the first of the right operand. -/
def mul (left right : Source T) : Except Fault (Tensor T) := left.contractAdjacent 1 right

/-- The product over one pair of axes with the left operand conjugated. -/
def dot (left right : Source T) : Except Fault (Tensor T) :=
  left.contractAdjacentWith Update.conjAdd 1 right

/-- The product over two pairs of axes with the left operand conjugated. -/
def doubleDot (left right : Source T) : Except Fault (Tensor T) :=
  left.contractAdjacentWith Update.conjAdd 2 right

/-- The contraction of given axes down to one element, from zero. -/
def reduce (update : T → T → T → T) (left : Source T) (leftAxes : List Nat) (right : Source T)
    (rightAxes : List Nat) : Except Fault T := do
  let output ← (Tensor.scalar 0).written (left.contractInto update leftAxes right rightAxes)
  output.value

/-- The inner product over all axes, with the left operand conjugated. -/
def inner (left right : Source T) : Except Fault T :=
  let axes := List.range left.shape.rank
  left.reduce Update.conjAdd axes right axes

/-- The bilinear form of a matrix: the left vector against the matrix times the right vector. -/
def bilinear (matrix leftVector rightVector : Source T) : Except Fault T := do
  let rows ← matrix.shape.sizeAt 0
  let zero ← Tensor.zeros .growable (.ofFree [rows])
  let image ← zero.written (matrix.contractInto Update.add [1] rightVector [0])
  leftVector.reduce Update.add [0] image.source [0]

/-- The contraction of the first axes of two sources. -/
def contractLeading (left right : Source T) : Except Fault (Tensor T) :=
  left.contract [0] right [0] (Shape.contractLeading left.shape.pattern right.shape.pattern)

/-- Contracts each axis of a source in turn with the first axis of an operand, whose other axes go to
the end. -/
def multilinear : Source T → (operands : List (Source T)) → Except Fault (Tensor T)
  | source, [] => source.copy
  | source, [operand] => source.contractLeading operand
  | source, operand :: operands => do
      let next ← source.contractLeading operand
      next.source.multilinear operands

end ShapedTensor.Source
