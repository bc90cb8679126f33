import ShapedTensor.Size

namespace ShapedTensor.Shape

/-- The number of elements: the product of all sizes, 1 without axes. -/
def size (shape : Shape) : Except Fault Nat := Size.product shape.sizes

/-- The size of one axis. -/
def sizeAt (shape : Shape) (axis : Nat) : Except Fault Nat :=
  match shape.sizes[axis]? with
  | some size => .ok size
  | none => .error (.positionPastEnd shape.rank axis)

/-- The size of one axis if it is fixed. -/
def fixedSizeAt (shape : Shape) (axis : Nat) : Except Fault (Option Nat) :=
  match shape.pattern[axis]? with
  | some size => .ok size
  | none => .error (.positionPastEnd shape.rank axis)

/-- The product of the sizes before `axis`. -/
def sizeBefore (shape : Shape) (axis : Nat) : Except Fault Nat :=
  if axis ≤ shape.rank then Size.product (shape.sizes.take axis)
  else .error (.stopPastEnd axis shape.rank)

/-- The product of the sizes after `axis`. -/
def sizeAfter (shape : Shape) (axis : Nat) : Except Fault Nat := do
  let start ← Size.add axis 1
  if start ≤ shape.rank then Size.product (shape.sizes.drop start)
  else .error (.startPastEnd start shape.rank)

end ShapedTensor.Shape
