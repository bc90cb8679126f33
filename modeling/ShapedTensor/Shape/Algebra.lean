import ShapedTensor.Size

namespace ShapedTensor

/-- An axis of the given size under one entry of a pattern, which checked builds hold to a fixed size. -/
def Axis.ofSize : Option Nat → Nat → Except Fault Axis
  | some fixedSize, size =>
      if size = fixedSize then .ok (.fixed fixedSize) else .error (.fixedAxis fixedSize size)
  | none, size => .ok (.free size)

namespace Shape

/-- Axes of the given sizes, the first wrong size named first. -/
def axesOfSizes : Pattern → List Nat → Except Fault (List Axis)
  | entry :: pattern, size :: sizes => do
      let axis ← Axis.ofSize entry size
      let axes ← axesOfSizes pattern sizes
      return axis :: axes
  | _, _ => .ok []

/-- The shape of the given sizes, one for each axis of the pattern. -/
def ofSizes (pattern : Pattern) (sizes : List Nat) : Except Fault Shape :=
  if sizes.length = pattern.length then Shape.mk <$> axesOfSizes pattern sizes
  else .error (.rankMismatch pattern.length sizes.length)

/-- Gives the free axes of a pattern their sizes in turn, 0 when none is left. -/
def fillFree : Pattern → List Nat → List Axis
  | [], _ => []
  | some size :: pattern, sizes => .fixed size :: fillFree pattern sizes
  | none :: pattern, sizes => .free (sizes.headD 0) :: fillFree pattern sizes.tail

/-- The shape whose free axes have the given sizes. -/
def ofFreeSizes (pattern : Pattern) (sizes : List Nat) : Except Fault Shape :=
  let freeRank := pattern.countP Option.isNone
  if sizes.length = freeRank then .ok ⟨fillFree pattern sizes⟩
  else .error (.freeRankMismatch freeRank sizes.length)

/-- The shape of a pattern whose free axes are empty. -/
def ofPattern (pattern : Pattern) : Shape := ⟨fillFree pattern []⟩

/-- A shape of free axes. -/
def ofFree (sizes : List Nat) : Shape := ⟨sizes.map Axis.free⟩

/-- The shape without axes. -/
def scalar : Shape := ⟨[]⟩

/-- The shape that is fixed where either is; checked builds ask both for the same sizes. -/
def combine (left right : Shape) : Except Fault Shape :=
  if left.sameSizes right then .ok ⟨List.zipWith Axis.join left.axes right.axes⟩
  else .error (.shapesDiffer left right)

/-- The same sizes under another pattern. -/
def convert (shape : Shape) (pattern : Pattern) : Except Fault Shape :=
  ofSizes pattern shape.sizes

def concat (left right : Shape) : Shape := ⟨left.axes ++ right.axes⟩

/-- The first `count` axes and the others. -/
def splitFirst (shape : Shape) (count : Nat) : Shape × Shape :=
  (⟨shape.axes.take count⟩, ⟨shape.axes.drop count⟩)

/-- The axes before the last `count` ones, and these. -/
def splitLast (shape : Shape) (count : Nat) : Shape × Shape :=
  shape.splitFirst (shape.rank - count)

/-- The shape without its first axis. -/
def tail (shape : Shape) : Shape := (shape.splitFirst 1).2

/-- The axes in the opposite order; at rank 2 the exchange of rows and columns. -/
def transpose (shape : Shape) : Shape := ⟨shape.axes.reverse⟩

/-- What is left when the last `count` axes of one shape meet the first `count` of another, whose sizes
are compared in checked builds. -/
def contract (left right : Shape) (count : Nat) : Except Fault Shape :=
  let (outer, last) := left.splitLast count
  let (first, rest) := right.splitFirst count
  if last.sameSizes first then .ok (outer.concat rest)
  else .error (.contractedShapesDiffer last first)

/-- The pattern that is left when the first axes of two patterns meet. -/
def contractLeading (left right : Pattern) : Pattern := left.tail ++ right.tail

end Shape

end ShapedTensor
