import ShapedTensor.Contraction.Plan
import ShapedTensor.Contraction.Update
import ShapedTensor.Index.Odometer
import ShapedTensor.Target

namespace ShapedTensor

variable {T : Type}

namespace Contraction

/-- One update: the cell of the output is found before the operands are read. -/
def step (contraction : Contraction) (update : T → T → T → T) (left right : Source T)
    (target : Target) (summed output : List Nat) : Writing T Unit := do
  let cell ← target.cell (T := T) output
  let leftElement ← left.read (contraction.leftIndex summed output)
  let rightElement ← right.read (contraction.rightIndex summed output)
  modify (·.modify cell fun own => update own leftElement rightElement)

/-- Runs a planned contraction into a target of the right sizes. -/
def run (contraction : Contraction) (update : T → T → T → T) (left right : Source T)
    (target : Target) : Writing T Unit := do
  if target.shape.sizes = contraction.outputSizes then
    Odometer.foldM (contraction.contractedSizes ++ contraction.outputSizes)
      (fun _ position =>
        let count := contraction.pairs.length
        contraction.step update left right target (position.take count) (position.drop count)) ()
  else throw (.outputSizes target.shape.sizes contraction.outputSizes)

end Contraction

namespace Source

/-- Contracts two sources over pairs of axes into a target. -/
def contractInto (update : T → T → T → T) (left : Source T) (leftAxes : List Nat)
    (right : Source T) (rightAxes : List Nat) (target : Target) : Writing T Unit := do
  let contraction ← Contraction.plan leftAxes left.shape.sizes rightAxes right.shape.sizes
  contraction.run update left right target

/-- Contracts the last `count` axes of a source with the first of another into a target. -/
def contractAdjacentInto (update : T → T → T → T) (count : Nat) (left right : Source T)
    (target : Target) : Writing T Unit := do
  let (leftAxes, rightAxes) ← Contraction.adjacentAxes left.shape.rank count
  left.contractInto update leftAxes right rightAxes target

variable [Element T]

/-- The contraction of two sources over pairs of axes, under a pattern for the output. -/
def contract (left : Source T) (leftAxes : List Nat) (right : Source T) (rightAxes : List Nat)
    (pattern : Pattern) : Except Fault (Tensor T) := do
  let contraction ← Contraction.plan leftAxes left.shape.sizes rightAxes right.shape.sizes
  let shape ← Shape.ofSizes pattern contraction.outputSizes
  let output ← Tensor.zeros .growable shape
  output.written (contraction.run Update.add left right)

/-- The contraction of adjacent axes under an update, from zero. -/
def contractAdjacentWith (update : T → T → T → T) (count : Nat) (left right : Source T) :
    Except Fault (Tensor T) := do
  let shape ← left.shape.contract right.shape count
  let output ← Tensor.zeros .growable shape
  output.written (left.contractAdjacentInto update count right)

/-- The contraction of the last `count` axes of a source with the first of another. -/
def contractAdjacent (count : Nat) (left right : Source T) : Except Fault (Tensor T) :=
  left.contractAdjacentWith Update.add count right

end Source

end ShapedTensor
