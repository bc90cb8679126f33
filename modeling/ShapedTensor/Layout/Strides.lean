import ShapedTensor.Size

namespace ShapedTensor.Strides

/-- The size of the box, and the stride of every axis when the last runs fastest. -/
def rowMajorFrom : List Nat → Except Fault (Nat × List Nat)
  | [] => .ok (1, [])
  | size :: sizes => do
      let (stride, strides) ← rowMajorFrom sizes
      let total ← Size.mul stride size
      return (total, stride :: strides)

/-- The strides of a packed buffer whose last axis runs fastest. -/
def rowMajor (sizes : List Nat) : Except Fault (List Nat) := Prod.snd <$> rowMajorFrom sizes

/-- The strides of the axes when the first of them has the given stride. -/
def columnMajorFrom (stride : Nat) : List Nat → Except Fault (List Nat)
  | [] => .ok []
  | size :: sizes => do
      let next ← Size.mul stride size
      let strides ← columnMajorFrom next sizes
      return stride :: strides

/-- The strides of a packed buffer whose first axis runs fastest. -/
def columnMajor (sizes : List Nat) : Except Fault (List Nat) := columnMajorFrom 1 sizes

/-- Adds `factor * stride` for each pair to a total. -/
def accumulate (total : Nat) (pairs : List (Nat × Nat)) : Except Fault Nat :=
  pairs.foldlM (fun total pair => do
    let distance ← Size.mul pair.1 pair.2
    Size.add total distance) total

/-- The place of an index: the sum of its coordinates times their strides. -/
def offset (index strides : List Nat) : Except Fault Nat := accumulate 0 (index.zip strides)

/-- The length of the shortest buffer that holds every place of the box. -/
def span (sizes strides : List Nat) : Except Fault Nat :=
  if sizes.contains 0 then .ok 0
  else do
    let last ← accumulate 0 ((sizes.map (· - 1)).zip strides)
    Size.add 1 last

end ShapedTensor.Strides
