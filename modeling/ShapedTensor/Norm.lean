import ShapedTensor.Tensor.Basic

namespace ShapedTensor

variable {T R : Type} [RealElement R] [Magnitude T R]

namespace Source

/-- The sum of the squared lengths, in row-major order. -/
def sumAbsSq (source : Source T) : Except Fault R :=
  Index.foldM source.shape.sizes
    (fun total index => do
      let element ← source.read index
      return total + Magnitude.absSq element) 0

/-- The greatest squared length, 0 without elements. -/
def maxAbsSq (source : Source T) : Except Fault R :=
  Index.foldM source.shape.sizes
    (fun greatest index => do
      let element ← source.read index
      let length : R := Magnitude.absSq element
      return if RealElement.less greatest length then length else greatest) 0

/-- The greatest length. -/
def maxAbs (source : Source T) : Except Fault R := RealElement.sqrt <$> source.maxAbsSq

end Source

/-- The sum of the squared lengths of the cells. -/
def Tensor.sumAbsSq (tensor : Tensor T) : R :=
  tensor.cells.foldl (fun total element => total + Magnitude.absSq element) 0

end ShapedTensor
