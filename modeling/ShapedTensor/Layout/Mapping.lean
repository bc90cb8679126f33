import ShapedTensor.Shape.Extent
import ShapedTensor.Shape.Algebra
import ShapedTensor.Layout.Strides

/-! Packed layouts keep nothing but the shape, and a broadcast sends every index to place 0. -/

namespace ShapedTensor

/-- How indices are laid out in a buffer. -/
inductive Layout where
  | rowMajor
  | columnMajor
  | strided (strides : List Nat)
  | broadcast
  deriving DecidableEq

/-- A shape together with its layout. -/
structure Mapping where
  shape : Shape
  layout : Layout
  deriving DecidableEq

namespace Mapping

/-- The place of an index reached from its first coordinate on. -/
def horner (index sizes : List Nat) : Except Fault Nat :=
  (index.zip sizes).foldlM (fun place pair => do
    let scaled ← Size.mul place pair.2
    Size.add scaled pair.1) 0

/-- The place of an index in the buffer; the index is not compared with the sizes. -/
def offset (mapping : Mapping) (index : List Nat) : Except Fault Nat :=
  match mapping.layout with
  | .rowMajor => horner index mapping.shape.sizes
  | .columnMajor => horner index.reverse mapping.shape.sizes.reverse
  | .strided strides => Strides.offset index strides
  | .broadcast => .ok 0

/-- The distance in the buffer between neighbours along an axis. -/
def stride (mapping : Mapping) (axis : Nat) : Except Fault Nat :=
  match mapping.layout with
  | .rowMajor => mapping.shape.sizeAfter axis
  | .columnMajor => mapping.shape.sizeBefore axis
  | .strided strides =>
      match strides[axis]? with
      | some stride => .ok stride
      | none => .error (.positionPastEnd strides.length axis)
  | .broadcast => .ok 0

/-- The length of the shortest buffer that holds every place; a broadcast asks for none. -/
def span (mapping : Mapping) : Except Fault Nat :=
  match mapping.layout with
  | .rowMajor => mapping.shape.size
  | .columnMajor => mapping.shape.size
  | .strided strides => Strides.span mapping.shape.sizes strides
  | .broadcast => .ok 0

/-- Whether every mapping of this layout and rank sends distinct indices to distinct places. -/
def alwaysUnique (mapping : Mapping) : Bool :=
  match mapping.layout with
  | .broadcast => mapping.shape.rank == 0
  | _ => true

/-- Whether every mapping of this layout uses every place of its span. -/
def alwaysExhaustive (mapping : Mapping) : Bool :=
  match mapping.layout with
  | .strided _ => false
  | _ => true

/-- Whether every mapping of this layout is described by its strides. -/
def alwaysStrided (mapping : Mapping) : Bool :=
  match mapping.layout with
  | .broadcast => false
  | _ => true

def isUnique (mapping : Mapping) : Bool := mapping.alwaysUnique

/-- Strides without gaps span as many places as there are elements. -/
def isExhaustive (mapping : Mapping) : Except Fault Bool :=
  match mapping.layout with
  | .strided _ =>
      if mapping.shape.rank = 0 then .ok true
      else do
        let span ← mapping.span
        let size ← mapping.shape.size
        return span == size
  | _ => .ok mapping.alwaysExhaustive

def isStrided (mapping : Mapping) : Bool := mapping.alwaysStrided

/-- Compares the strides of the axes one by one and stops at the first difference. -/
def sameStrides (left right : Mapping) : List Nat → Except Fault Bool
  | [] => .ok true
  | axis :: axes => do
      let leftStride ← left.stride axis
      let rightStride ← right.stride axis
      if leftStride = rightStride then sameStrides left right axes else return false

/-- Equality of sizes and of the stride of every axis, whatever the patterns and layouts. -/
def sameAs (left right : Mapping) : Except Fault Bool :=
  if left.shape.sameSizes right.shape then
    sameStrides left right (List.range left.shape.rank)
  else .ok false

/-- The strides with which a mapping without its first axis goes on. -/
def tail (mapping : Mapping) : Except Fault Mapping :=
  match mapping.layout with
  | .rowMajor => .ok ⟨mapping.shape.tail, .rowMajor⟩
  | .columnMajor => do
      let strides ← Strides.columnMajor mapping.shape.sizes
      return ⟨mapping.shape.tail, .strided strides.tail⟩
  | .strided strides => .ok ⟨mapping.shape.tail, .strided strides.tail⟩
  | .broadcast => .ok ⟨mapping.shape.tail, .broadcast⟩

/-- The mapping with its two axes exchanged, which keeps every place. -/
def transpose (mapping : Mapping) : Except Fault Mapping :=
  if mapping.isStrided then do
    let second ← mapping.stride 1
    let first ← mapping.stride 0
    return ⟨mapping.shape.transpose, .strided [second, first]⟩
  else .error .noStrides

/-- The mapping as text. -/
def text (mapping : Mapping) : String :=
  let shape := ("extents", mapping.shape.text)
  match mapping.layout with
  | .rowMajor => Text.record "RightMapping" [shape]
  | .columnMajor => Text.record "LeftMapping" [shape]
  | .strided strides => Text.record "StrideMapping" [shape, ("strides", Text.numbers strides)]
  | .broadcast => Text.record "ZeroMapping" [shape]

end Mapping

end ShapedTensor
