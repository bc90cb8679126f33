import ShapedTensor.Shape.Basic

namespace ShapedTensor

/-- The cause of a refusal; what only checked builds test, the others take for granted. -/
inductive Fault where
  /-- The index is not one of the index space. -/
  | outsideIndexSpace (index sizes : List Nat)
  /-- A buffer does not hold the number of elements that the shape needs. -/
  | elementCount (expected given : Nat)
  /-- Two shapes of one rank have different sizes. -/
  | sizesDiffer (left right : List Nat)
  /-- A nested list is not as deep as the rank. -/
  | nestingDepth (expected given : Nat)
  /-- A list inside a nested list has the wrong length for its axis. -/
  | listLength (axis expected given : Nat)
  /-- A sum of sizes does not fit into a word; tested in builds with overflow checks only. -/
  | sumOverflow
  /-- A product of sizes does not fit into a word; tested in builds with overflow checks only. -/
  | productOverflow
  /-- A number of elements takes more bytes than a buffer can have. -/
  | capacityOverflow
  /-- A position lies past the end of a buffer. -/
  | positionPastEnd (length position : Nat)
  /-- A window would begin past the end of a buffer. -/
  | startPastEnd (start length : Nat)
  /-- A window would stop past the end of a buffer. -/
  | stopPastEnd (stop length : Nat)
  /-- The number of sizes is not the rank. -/
  | rankMismatch (rank given : Nat)
  /-- The number of sizes is not the number of free axes. -/
  | freeRankMismatch (freeRank given : Nat)
  /-- A fixed axis was given another size; tested in checked builds only. -/
  | fixedAxis (size given : Nat)
  /-- Inline storage was given another number of elements. -/
  | inlineCount (count given : Nat)
  /-- Two shapes that should have the same sizes do not; tested in checked builds only. -/
  | shapesDiffer (left right : Shape)
  /-- The contracted parts of two shapes do not have the same sizes; tested in checked builds only. -/
  | contractedShapesDiffer (left right : Shape)
  /-- A pair of contracted axes has two sizes; tested in checked builds only. -/
  | contractedAxesDiffer (leftAxis leftSize rightAxis rightSize : Nat)
  /-- The two lists of contracted axes have different lengths. -/
  | axisCount (left right : Nat)
  /-- A contracted axis is none of the operand. -/
  | axisOutOfRange (axis rank : Nat)
  /-- An axis is contracted twice. -/
  | axisRepeated (axis : Nat)
  /-- The output of a contraction has the wrong sizes; tested in checked builds only. -/
  | outputSizes (sizes expected : List Nat)
  /-- More axes are to be contracted than the left operand has. -/
  | tooManyAxes (count rank : Nat)
  /-- An index that was promised to be in range is not; tested in checked builds only. -/
  | indexOutOfRange (index : List Nat) (shape : Shape)
  /-- The slice of the first axis does not exist; tested in checked builds only. -/
  | sliceOutOfRange (position size : Nat)
  /-- The layout has no strides to exchange. -/
  | noStrides
  /-- Strides that were promised to be row-major are not; tested in checked builds only. -/
  | notRowMajor (strides : List Nat) (shape : Shape)
  /-- Strides that were promised to be column-major are not; tested in checked builds only. -/
  | notColumnMajor (strides : List Nat) (shape : Shape)
  /-- A column-major layout is no row-major one at this rank. -/
  | columnMajorRank (rank : Nat)
  /-- A row-major layout is no column-major one at this rank. -/
  | rowMajorRank (rank : Nat)
  /-- A sequence has no element at the position. -/
  | sequenceExhausted (position : Nat)
  /-- A zero tensor was asked to hold another value. -/
  | nonzeroValue (value : String)
  deriving DecidableEq

namespace Fault

/-- The text of a failed comparison of two numbers. -/
def comparison (reason : String) (left right : Nat) : String :=
  s!"assertion `left == right` failed: {reason}\n  left: {left}\n right: {right}"

/-- The text of a fault. -/
def message : Fault → String
  | outsideIndexSpace index sizes =>
      "Indices out of bounds: " ++ Text.numbers index ++ " not in index space " ++ Text.numbers sizes
  | elementCount expected given => s!"shape mismatch: expected {expected} elements, got {given}"
  | sizesDiffer left right =>
      "extents mismatch: " ++ Text.numbers left ++ " vs " ++ Text.numbers right
  | nestingDepth expected given => s!"expected nested list of depth {expected}, got depth {given}"
  | listLength axis expected given =>
      s!"initializer list of length {given} does not match extent {expected} of axis {axis}"
  | sumOverflow => "attempt to add with overflow"
  | productOverflow => "attempt to multiply with overflow"
  | capacityOverflow => "capacity overflow"
  | positionPastEnd length position =>
      s!"index out of bounds: the len is {length} but the index is {position}"
  | startPastEnd start length =>
      s!"range start index {start} out of range for slice of length {length}"
  | stopPastEnd stop length => s!"range end index {stop} out of range for slice of length {length}"
  | rankMismatch rank given => comparison s!"expected {rank} extents, got {given}" given rank
  | freeRankMismatch freeRank given =>
      comparison s!"expected {freeRank} dynamic extents, got {given}" given freeRank
  | fixedAxis size given => s!"static extent {size} initialized with {given}"
  | inlineCount count given =>
      comparison s!"fixed storage of {count} elements cannot hold {given} elements" given count
  | shapesDiffer left right => "extents " ++ left.text ++ " and " ++ right.text ++ " differ"
  | contractedShapesDiffer left right =>
      "contracted extents differ: " ++ left.text ++ " vs " ++ right.text
  | contractedAxesDiffer leftAxis leftSize rightAxis rightSize =>
      s!"contracted extents differ: axis {leftAxis} has {leftSize}, axis {rightAxis} has {rightSize}"
  | axisCount left right =>
      comparison
        s!"contracting {left} axes of the left operand with {right} axes of the right operand"
        left right
  | axisOutOfRange axis rank => s!"axis {axis} out of range for rank {rank}"
  | axisRepeated axis => s!"axis {axis} contracted more than once"
  | outputSizes sizes expected =>
      "output extents " ++ Text.numbers sizes ++ " do not match contraction result " ++
        Text.numbers expected
  | tooManyAxes count rank => s!"cannot contract {count} axes of a rank-{rank} operand"
  | indexOutOfRange index shape =>
      "index " ++ Text.numbers index ++ " out of range for extents " ++ shape.text
  | sliceOutOfRange position size => s!"sub-view index {position} out of range for extent {size}"
  | noStrides => "cannot transpose a mapping without strides"
  | notRowMajor strides shape =>
      "strides " ++ Text.numbers strides ++ " are not row-major for extents " ++ shape.text
  | notColumnMajor strides shape =>
      "strides " ++ Text.numbers strides ++ " are not column-major for extents " ++ shape.text
  | columnMajorRank rank => s!"column-major and row-major mappings differ for rank {rank}"
  | rowMajorRank rank => s!"row-major and column-major mappings differ for rank {rank}"
  | sequenceExhausted position => s!"iterator exhausted before position {position}"
  | nonzeroValue value => "zero tensor cannot hold the value " ++ value

end Fault

end ShapedTensor
