import ShapedTensor.Shape.Extent
import ShapedTensor.Shape.Algebra
import ShapedTensor.Index.Walk
import ShapedTensor.Element.Basic

namespace ShapedTensor

/-- A shape with an element to read at every index. -/
structure Source (T : Type) where
  shape : Shape
  read : List Nat → Except Fault T

namespace Source

variable {T : Type}

/-- The element at an index that is promised to be in range. -/
def get (source : Source T) (index : List Nat) : Except Fault T :=
  if source.shape.contains index then source.read index
  else .error (.indexOutOfRange index source.shape)

/-- The element at an index, or the refusal of an index outside of the shape. -/
def at? (source : Source T) (index : List Nat) : Except Fault T :=
  if source.shape.contains index then source.read index
  else .error (.outsideIndexSpace index source.shape.sizes)

/-- The elements in row-major order. -/
def elements (source : Source T) : Except Fault (Array T) :=
  Index.collectM source.shape.sizes source.read

/-- Compares the elements in row-major order and reads none after a difference. -/
def sameElements [BEq T] (left right : Source T) : Except Fault Bool :=
  Index.foldM left.shape.sizes
    (fun same index =>
      if same then do
        let leftElement ← left.read index
        let rightElement ← right.read index
        return leftElement == rightElement
      else return false)
    true

/-- Sources are equal when their sizes and all their elements are. -/
def equals [BEq T] (left right : Source T) : Except Fault Bool :=
  if left.shape.sameSizes right.shape then left.sameElements right else .ok false

end Source

end ShapedTensor
